import LineClosure.Proofs.Export.Accounting
import Mathlib.Algebra.BigOperators.Ring.Finset
import Mathlib.Algebra.Order.BigOperators.Group.Finset

/-! What the totals of an export add up. A line that is asked for twice is collected twice and has
two entries, and its counts are added twice, while its file is written over and named once. So the
totals are those of the exported lines just if none of these is asked for twice. -/

namespace LineClosure

namespace Job

def exportedLines (r : Registry) (window : Window) (lines : List Line) : Finset Line :=
  (lines.filter fun line => (r.collect line window).valid).toFinset

section
variable {r : Registry} {window : Window} {lines : List Line} {report : ExportReport}
  {writesReport : Bool}

theorem mem_exportedLines {line : Line} :
    line ∈ exportedLines r window lines ↔
      line ∈ lines ∧ (r.collect line window).valid = true := by
  rw [exportedLines, List.mem_toFinset, List.mem_filter]

theorem Accounts.exported_eq (accounts : Accounts r window writesReport lines report) :
    report.exported =
      (lines.filter fun line => (r.collect line window).valid).map (entry r window) := by
  rw [ExportReport.exported, accounts.entries, List.filter_map]
  apply congrArg (List.map (entry r window))
  apply List.filter_congr
  intro line _
  have state := (tells_entry r window line).ok_iff
  cases valid : (r.collect line window).valid <;> simp [state, valid]

/-- Each line with data counts as often as it is asked for. -/
theorem Accounts.total_eq_sum (accounts : Accounts r window writesReport lines report)
    {count : Tally → Int} (is : count ∈ Tally.counts) :
    count report.total =
      ∑ line ∈ exportedLines r window lines,
        (lines.count line : Int) * count (r.collect line window).closure.tally := by
  have often : ∀ line ∈ exportedLines r window lines,
      (lines.filter fun line => (r.collect line window).valid).count line = lines.count line :=
    fun line exported => List.count_filter (mem_exportedLines.mp exported).2
  calc
    count report.total =
        ((lines.filter fun line => (r.collect line window).valid).map fun line =>
          count (r.collect line window).closure.tally).sum := by
      rw [accounts.total count is, accounts.exported_eq, List.map_map]
      rfl
    _ = ∑ line ∈ exportedLines r window lines,
          (lines.filter fun line => (r.collect line window).valid).count line •
            count (r.collect line window).closure.tally := Finset.sum_list_map_count _ _
    _ = _ := by
      apply Finset.sum_congr rfl
      intro line exported
      rw [often line exported, nsmul_eq_mul]

theorem Accounts.lines_eq_sum (accounts : Accounts r window writesReport lines report) :
    report.total.lines = (∑ line ∈ exportedLines r window lines, lines.count line : Nat) := by
  have is : Tally.lines ∈ Tally.counts := List.mem_cons_self
  rw [accounts.total_eq_sum is, Nat.cast_sum]
  apply Finset.sum_congr rfl
  intro line exported
  have one : (r.collect line window).closure.tally.lines = 1 := by
    have told := (tells_entry r window line).tally
    rw [if_pos (mem_exportedLines.mp exported).2] at told
    exact congrArg Tally.lines told
  rw [one, mul_one]

theorem count_of_exported {line : Line} (exported : line ∈ exportedLines r window lines) :
    1 ≤ lines.count line :=
  List.count_pos_iff.mpr (mem_exportedLines.mp exported).1

theorem Accounts.card_le (accounts : Accounts r window writesReport lines report) :
    ((exportedLines r window lines).card : Int) ≤ report.total.lines := by
  rw [accounts.lines_eq_sum, Finset.card_eq_sum_ones]
  exact_mod_cast Finset.sum_le_sum fun line exported => count_of_exported exported

theorem Accounts.lines_eq_card_iff (accounts : Accounts r window writesReport lines report) :
    report.total.lines = (exportedLines r window lines).card ↔
      ∀ line ∈ exportedLines r window lines, lines.count line = 1 := by
  rw [accounts.lines_eq_sum, Finset.card_eq_sum_ones, Int.natCast_inj, eq_comm,
    Finset.sum_eq_sum_iff_of_le fun line exported => count_of_exported exported]
  simp only [eq_comm]

theorem Accounts.total_of_once (accounts : Accounts r window writesReport lines report)
    (once : ∀ line ∈ exportedLines r window lines, lines.count line = 1) {count : Tally → Int}
    (is : count ∈ Tally.counts) :
    count report.total =
      ∑ line ∈ exportedLines r window lines, count (r.collect line window).closure.tally := by
  rw [accounts.total_eq_sum is]
  apply Finset.sum_congr rfl
  intro line exported
  rw [once line exported, Nat.cast_one, one_mul]

end

section
variable {input output : Text} {request : ExportRequest} {desk after : Desk}
  {report : ExportReport}

/-- The totals of an export that gets to its end add up the closures of the exported lines, each as
often as its line is asked for. The line count is at least the number of exported lines, and is that
number just if none of them is asked for twice; then every count adds up each closure once. So it is
if all lines are asked for, or if no identifier comes twice. -/
theorem exportLines_totals (done : exportLines input output request desk = .ok report after) :
    ∃ loading lines, Prepares desk.files input request loading lines ∧
      (∀ count ∈ Tally.counts, count report.total =
        ∑ line ∈ exportedLines loading.registry request.window lines,
          (lines.count line : Int) *
            count (loading.registry.collect line request.window).closure.tally) ∧
      ((exportedLines loading.registry request.window lines).card : Int) ≤ report.total.lines ∧
      (report.total.lines = (exportedLines loading.registry request.window lines).card ↔
        ∀ line ∈ exportedLines loading.registry request.window lines, lines.count line = 1) ∧
      ((∀ line ∈ exportedLines loading.registry request.window lines, lines.count line = 1) →
        ∀ count ∈ Tally.counts, count report.total =
          ∑ line ∈ exportedLines loading.registry request.window lines,
            count (loading.registry.collect line request.window).closure.tally) ∧
      ((request.lineIds.isNull = true ∨ ∃ ids : List Id,
          request.lineIds.elements? = some (ids.map .scalar) ∧ (ids.map canonical).Nodup) →
        ∀ line ∈ exportedLines loading.registry request.window lines, lines.count line = 1) := by
  obtain ⟨loading, lines, events, prepares, ran⟩ := prepares_of_done done
  have accounts : Accounts loading.registry request.window request.writeReport lines report :=
    accounts_exportAll ran
  have once : (request.lineIds.isNull = true ∨ ∃ ids : List Id,
      request.lineIds.elements? = some (ids.map .scalar) ∧ (ids.map canonical).Nodup) →
      ∀ line ∈ exportedLines loading.registry request.window lines, lines.count line = 1 := by
    intro named line exported
    have distinct := ExportRequest.nodup_of_requested prepares.requested named
    exact List.count_eq_one_of_mem distinct (mem_exportedLines.mp exported).1
  exact ⟨loading, lines, prepares, fun count is => accounts.total_eq_sum is, accounts.card_le,
    accounts.lines_eq_card_iff, fun single count is => accounts.total_of_once single is, once⟩

end

theorem exportLines_totals_ferry :
    ∃ report after, exportLines "in.json" "out" {} ferryDesk = .ok report after ∧
      report.total.lines = (exportedLines Load.ferryLoading.registry {} [Load.ferryLine]).card ∧
      report.total.vehicleJourneys =
        ∑ line ∈ exportedLines Load.ferryLoading.registry {} [Load.ferryLine],
          (Load.ferryLoading.registry.collect line {}).closure.tally.vehicleJourneys := by
  obtain ⟨report, after, run⟩ := ferry_exports
  obtain ⟨loading, lines, prepares, _, _, card, single, once⟩ := exportLines_totals run
  obtain ⟨rfl, rfl⟩ := ferry_prepares.unique prepares
  have all := once (Or.inl rfl)
  have journeys : Tally.vehicleJourneys ∈ Tally.counts :=
    List.mem_of_getElem? (show Tally.counts[3]? = some Tally.vehicleJourneys from rfl)
  exact ⟨report, after, run, card.mpr all, single all _ journeys⟩

/-! ## A ferry that is asked for twice -/

def twice : ExportRequest := { lineIds := .list [.text "L", .text "L"] }

theorem twice_prepares :
    Prepares ferryDesk.files "in.json" twice Load.ferryLoading
      [Load.ferryLine, Load.ferryLine] where
  window := rfl
  loaded := ferry_prepares.loaded
  judged := ferry_prepares.judged
  requested := by
    have found : Load.ferryLoading.registry.lines.find? Load.ferryLine.id =
        some Load.ferryLine := by
      apply Roster.find?_eq_some_iff.mpr
      rw [Load.ferry_lines]
      exact ⟨List.mem_singleton_self _, rfl⟩
    have names : ExportRequest.Names Load.ferryLoading.registry
        [Load.ferryLine.id, Load.ferryLine.id] [Load.ferryLine, Load.ferryLine] :=
      .cons found (.cons found .nil)
    exact ExportRequest.lines_of_names rfl names

/-- Asked for twice, the one ferry is counted as two lines. -/
theorem exportLines_countsTwice :
    ∃ report after, exportLines "in.json" "out" twice ferryDesk = .ok report after ∧
      Prepares ferryDesk.files "in.json" twice Load.ferryLoading
        [Load.ferryLine, Load.ferryLine] ∧
      exportedLines Load.ferryLoading.registry twice.window [Load.ferryLine, Load.ferryLine] =
        {Load.ferryLine} ∧
      report.total.lines = 2 ∧
      ¬∀ count ∈ Tally.counts, count report.total =
        ∑ line ∈ exportedLines Load.ferryLoading.registry twice.window
            [Load.ferryLine, Load.ferryLine],
          count (Load.ferryLoading.registry.collect line twice.window).closure.tally := by
  have accepts : ∀ line ∈ [Load.ferryLine, Load.ferryLine],
      ferryDesk.files.Accepts "out" (closureName line.id) := by
    intro line given
    have only : line = Load.ferryLine := by simpa using given
    exact only ▸ ferry_accepts.1
  obtain ⟨_, report, after, run, ran⟩ := twice_prepares.runs accepts ferry_accepts.2
  have accounts := accounts_exportAll ran
  have valid : (Load.ferryLoading.registry.collect Load.ferryLine {}).valid = true := by
    decide +kernel
  have one : (Load.ferryLoading.registry.collect Load.ferryLine {}).closure.tally.lines = 1 := by
    decide +kernel
  have exported : exportedLines Load.ferryLoading.registry twice.window
      [Load.ferryLine, Load.ferryLine] = {Load.ferryLine} := by
    ext line
    rw [mem_exportedLines, Finset.mem_singleton]
    constructor
    · rintro ⟨given, _⟩
      simpa using given
    · rintro rfl
      exact ⟨List.mem_cons_self, valid⟩
  have two : report.total.lines = 2 := by
    rw [accounts.lines_eq_sum, exported, Finset.sum_singleton]
    rfl
  refine ⟨report, after, run, twice_prepares, exported, two, ?_⟩
  intro counts
  have once := counts Tally.lines List.mem_cons_self
  rw [exported, Finset.sum_singleton, two] at once
  exact absurd (once.trans one) (by decide)

end Job
end LineClosure
