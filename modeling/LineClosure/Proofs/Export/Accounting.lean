import LineClosure.Proofs.Export.AllOrNothing
import LineClosure.Proofs.Export.Readback
import Mathlib.Algebra.Ring.Int.Defs

/-! The report of an export accounts for every requested line: one entry a line, which depends on
nothing but the network, the line and the window, totals over the lines that have data, and the
files that were written. -/

namespace LineClosure

open FileTree Keyed Job

namespace Tally

def counts : List (Tally → Int) :=
  [lines, routes, journeyPatterns, vehicleJourneys, stopAreas, accessPoints, connectionLinks,
    timetables]

theorem count_add {count : Tally → Int} (is : count ∈ counts) (a b : Tally) :
    count (a + b) = count a + count b := by
  unfold counts at is
  simp only [List.mem_cons, List.not_mem_nil, or_false] at is
  rcases is with rfl | rfl | rfl | rfl | rfl | rfl | rfl | rfl <;> rfl

theorem count_zero {count : Tally → Int} (is : count ∈ counts) : count {} = 0 := by
  unfold counts at is
  simp only [List.mem_cons, List.not_mem_nil, or_false] at is
  rcases is with rfl | rfl | rfl | rfl | rfl | rfl | rfl | rfl <;> rfl

end Tally

/-- An entry says of a line what its collection came to. -/
structure LineReport.Tells (entry : LineReport) (line : Line) (c : Collection) : Prop where
  lineId : entry.lineId = .scalar line.id
  ok_iff : entry.state = .ok ↔ c.valid = true
  errors : entry.errors =
    if c.valid = true then [] else [⟨.noDataOnPeriod, .text "no data on period"⟩]
  tally : entry.tally =
    { lines := if c.valid = true then 1 else 0
      routes := c.closure.routes.size
      journeyPatterns := c.closure.journeyPatterns.size
      vehicleJourneys := c.closure.vehicleJourneys.size
      stopAreas := c.closure.stopAreas.size
      accessPoints := c.closure.accessPoints.size
      connectionLinks := c.closure.connectionLinks.size
      timetables := c.closure.timetables.size }
  nothing : c.valid = false → entry.tally = {}

def ExportReport.exported (report : ExportReport) : List LineReport :=
  report.lines.filter (·.state = .ok)

namespace Job

variable {r : Registry} {window : Window} {line : Line} {lines : List Line}

def entry (r : Registry) (window : Window) (line : Line) : LineReport :=
  lineReport line (r.collect line window)

/-- A report accounts for some lines: one entry a line, in order, the totals of the entries of lines
with data, and the files by name. -/
structure Accounts (r : Registry) (window : Window) (writesReport : Bool) (lines : List Line)
    (report : ExportReport) : Prop where
  entries : report.lines = lines.map (entry r window)
  total : ∀ count ∈ Tally.counts,
    count report.total = (report.exported.map fun e => count e.tally).sum
  exported : report.total.lines = report.exported.length
  once : report.files.Nodup
  files : ∀ name, name ∈ report.files ↔
    (∃ line ∈ lines, (entry r window line).state = .ok ∧ name = closureName line.id) ∨
      (writesReport = true ∧ name = reportName)

theorem tells_entry (r : Registry) (window : Window) (line : Line) :
    (entry r window line).Tells line (r.collect line window) where
  lineId := rfl
  ok_iff := by
    unfold entry lineReport
    cases (r.collect line window).valid <;> simp
  errors := rfl
  tally := by
    unfold entry lineReport Closure.tally
    by_cases valid : (r.collect line window).valid = true
    · simp [valid, Registry.line_of_valid valid]
    · have empty := r.closure_of_invalid line window (Bool.eq_false_iff.mpr valid)
      simp [valid, empty]
  nothing invalid := by
    unfold entry lineReport
    rw [r.closure_of_invalid line window invalid]
    rfl

/-! ## Entering lines -/

theorem lines_enter (report : ExportReport) :
    (report.enter r window line).lines = report.lines ++ [entry r window line] := by
  unfold ExportReport.enter
  dsimp only
  split <;> rfl

theorem count_enter {count : Tally → Int} (is : count ∈ Tally.counts) (report : ExportReport) :
    count (report.enter r window line).total =
      count report.total +
        (([entry r window line].filter (·.state = .ok)).map fun e => count e.tally).sum := by
  have state := (tells_entry r window line).ok_iff
  unfold ExportReport.enter
  dsimp only
  by_cases valid : (r.collect line window).valid = true
  · rw [if_pos valid, List.filter_cons_of_pos (by simpa using state.mpr valid)]
    dsimp only
    rw [Tally.count_add is]
    simp [entry]
  · rw [if_neg valid, List.filter_cons_of_neg (by simpa using mt state.mp valid)]
    simp

theorem mem_files_addFile {report : ExportReport} {name other : Text} :
    other ∈ (report.addFile name).files ↔ other ∈ report.files ∨ other = name := by
  unfold ExportReport.addFile
  split
  · next known =>
    have listed : name ∈ report.files := List.contains_iff_mem.mp known
    exact ⟨Or.inl, fun either => either.elim id fun same => same ▸ listed⟩
  · next new => simp

theorem nodup_addFile {report : ExportReport} {name : Text} (once : report.files.Nodup) :
    (report.addFile name).files.Nodup := by
  unfold ExportReport.addFile
  split
  · exact once
  · next new =>
    have fresh : name ∉ report.files := fun listed => new (List.contains_iff_mem.mpr listed)
    refine List.nodup_append.mpr ⟨once, List.nodup_singleton name, fun a given b here same => ?_⟩
    rw [List.mem_singleton.mp here] at same
    exact fresh (same ▸ given)

theorem mem_files_enter {report : ExportReport} {name : Text} :
    name ∈ (report.enter r window line).files ↔
      name ∈ report.files ∨
        ((r.collect line window).valid = true ∧ name = closureName line.id) := by
  unfold ExportReport.enter
  dsimp only
  by_cases valid : (r.collect line window).valid = true
  · rw [if_pos valid]
    simp only [valid, true_and]
    exact mem_files_addFile
  · rw [if_neg valid]
    simp [valid]

theorem nodup_enter {report : ExportReport} (once : report.files.Nodup) :
    (report.enter r window line).files.Nodup := by
  unfold ExportReport.enter
  dsimp only
  split
  · exact nodup_addFile once
  · exact once

/-! ## Entering one line after the other -/

section
variable (r window)

theorem lines_enterAll (lines : List Line) (report : ExportReport) :
    (lines.foldl (fun report line => report.enter r window line) report).lines =
      report.lines ++ lines.map (entry r window) := by
  induction lines generalizing report with
  | nil => simp
  | cons line rest ih => rw [List.foldl_cons, ih, lines_enter]; simp

theorem count_enterAll {count : Tally → Int} (is : count ∈ Tally.counts) (lines : List Line)
    (report : ExportReport) :
    count (lines.foldl (fun report line => report.enter r window line) report).total =
      count report.total +
        (((lines.map (entry r window)).filter (·.state = .ok)).map fun e => count e.tally).sum := by
  induction lines generalizing report with
  | nil => simp
  | cons line rest ih =>
    have apart : (line :: rest).map (entry r window) =
        [entry r window line] ++ rest.map (entry r window) := rfl
    rw [List.foldl_cons, ih, count_enter is, apart, List.filter_append, List.map_append,
      List.sum_append, Int.add_assoc]

theorem mem_files_enterAll {name : Text} (lines : List Line) (report : ExportReport) :
    name ∈ (lines.foldl (fun report line => report.enter r window line) report).files ↔
      name ∈ report.files ∨
        ∃ line ∈ lines, (r.collect line window).valid = true ∧ name = closureName line.id := by
  induction lines generalizing report with
  | nil => simp
  | cons line rest ih =>
    rw [List.foldl_cons, ih, mem_files_enter, List.exists_mem_cons_iff, or_assoc]

theorem nodup_enterAll (lines : List Line) {report : ExportReport} (once : report.files.Nodup) :
    (lines.foldl (fun report line => report.enter r window line) report).files.Nodup := by
  induction lines generalizing report with
  | nil => exact once
  | cons line rest ih => exact ih (nodup_enter once)

end
theorem sum_lines_exported (lines : List Line) :
    (((lines.map (entry r window)).filter (·.state = .ok)).map fun e => e.tally.lines).sum =
      ((lines.map (entry r window)).filter (·.state = .ok)).length := by
  have ones : ((lines.map (entry r window)).filter (·.state = .ok)).map (fun e => e.tally.lines) =
      ((lines.map (entry r window)).filter (·.state = .ok)).map fun _ => (1 : Int) := by
    apply List.map_congr_left
    intro e given
    obtain ⟨listed, ok⟩ := List.mem_filter.mp given
    obtain ⟨line, _, rfl⟩ := List.mem_map.mp listed
    have valid := (tells_entry r window line).ok_iff.mp (of_decide_eq_true ok)
    rw [(tells_entry r window line).tally, if_pos valid]
  rw [ones]
  simp

theorem accounts_reportOf (lines : List Line) :
    Accounts r window false lines (reportOf r window lines) where
  entries := by
    unfold reportOf
    simp [lines_enterAll]
  total count is := by
    unfold reportOf ExportReport.exported
    rw [count_enterAll r window is, lines_enterAll, Tally.count_zero is, Int.zero_add]
    rfl
  exported := by
    have is : Tally.lines ∈ Tally.counts := List.mem_cons_self
    unfold reportOf ExportReport.exported
    rw [count_enterAll r window is, lines_enterAll, Tally.count_zero is, Int.zero_add]
    exact sum_lines_exported lines
  once := nodup_enterAll r window lines List.nodup_nil
  files name := by
    unfold reportOf
    rw [mem_files_enterAll]
    simp [(tells_entry r window _).ok_iff]

theorem Accounts.addFile {report : ExportReport}
    (accounts : Accounts r window false lines report) :
    Accounts r window true lines (report.addFile reportName) where
  entries := by
    rw [ExportReport.lines_addFile]
    exact accounts.entries
  total count is := by
    rw [ExportReport.total_addFile]
    unfold ExportReport.exported
    rw [ExportReport.lines_addFile]
    exact accounts.total count is
  exported := by
    rw [ExportReport.total_addFile]
    unfold ExportReport.exported
    rw [ExportReport.lines_addFile]
    exact accounts.exported
  once := nodup_addFile accounts.once
  files name := by
    rw [mem_files_addFile, accounts.files]
    simp

/-! ## One line alone -/

theorem SavesLines.accepted {folder : Text} {files saved : FileTree}
    (saves : SavesLines r window folder lines files saved) :
    ∀ line ∈ lines, (r.collect line window).valid = true →
      files.Accepts folder (closureName line.id) := by
  induction saves with
  | nil => exact fun _ given => absurd given List.not_mem_nil
  | cons first _ ih =>
    refine List.forall_mem_cons.mpr ⟨fun valid => ?_, fun line given valid => ?_⟩
    · unfold SavesLine at first
      rw [if_pos valid] at first
      exact first.accepted
    · exact first.accepts_iff.mp (ih line given valid)

end Job

def ExportRequest.only (request : ExportRequest) (line : Line) : ExportRequest :=
  { request with lineIds := .list [.scalar line.id] }

theorem ExportRequest.lines_only {r : Registry} {line : Line} (request : ExportRequest)
    (member : line ∈ r.lines.members) : (request.only line).lines r = .ok [line] := by
  have found : r.lines.find? line.id = some line := Roster.find?_eq_some_iff.mpr ⟨member, rfl⟩
  have names : Names r [line.id] [line] := .cons found .nil
  exact lines_of_names rfl names

namespace Job

section
variable {input output : Text} {request : ExportRequest} {desk after : Desk} {loading : Loading}
  {lines : List Line} {report : ExportReport}

theorem Prepares.only {line : Line} (prepares : Prepares desk.files input request loading lines)
    (given : line ∈ lines) : Prepares desk.files input (request.only line) loading [line] where
  window := prepares.window
  loaded := prepares.loaded
  judged := prepares.judged
  requested := request.lines_only (ExportRequest.mem_of_requested prepares.requested line given)

theorem exportAll_lines {r : Registry}
    (done : exportAll r request output lines desk = .ok report after) :
    report.lines = lines.map (entry r request.window) := by
  obtain ⟨_, rfl, _⟩ := exportAll_spec done
  unfold reportOf
  split <;> simp [lines_enterAll]

theorem accounts_exportAll {r : Registry}
    (done : exportAll r request output lines desk = .ok report after) :
    Accounts r request.window request.writeReport lines report := by
  obtain ⟨_, rfl, _⟩ := exportAll_spec done
  cases request.writeReport with
  | true => exact (accounts_reportOf lines).addFile
  | false => exact accounts_reportOf lines

/-- Its own file is no part of what a report says. -/
theorem exportAll_document {r : Registry}
    (done : exportAll r request output lines desk = .ok report after) :
    report.document = (reportOf r request.window lines).document := by
  obtain ⟨_, rfl, _⟩ := exportAll_spec done
  split
  · exact ExportReport.document_addFile _ _
  · rfl

theorem exportAll_report {r : Registry}
    (done : exportAll r request output lines desk = .ok report after)
    (writes : request.writeReport = true) :
    after.files.HasFile output reportName (Document.render report.document).toUTF8 := by
  obtain ⟨_, _, _, _, reports⟩ := exportAll_spec done
  rw [SavesReport, if_pos writes] at reports
  rw [exportAll_document done]
  exact reports.hasFile

theorem exportLines_only {line : Line} (prepares : Prepares desk.files input request loading lines)
    (given : line ∈ lines)
    (done : exportLines input output request desk = .ok report after) :
    ∃ solo last, exportLines input output (request.only line) desk = .ok solo last ∧
      solo.lines = [entry loading.registry request.window line] := by
  obtain ⟨events, runs⟩ := exportLines_of_prepares output prepares
  rw [runs] at done
  obtain ⟨clear, _, between, saves, reports⟩ := exportAll_spec done
  obtain ⟨told, alone⟩ := exportLines_of_prepares output (prepares.only given)
  -- what the whole run has written it could also write alone
  have accepts := saves.accepted line given
  have acceptsReport : request.writeReport = true → desk.files.Accepts output reportName := by
    intro writes
    unfold SavesReport at reports
    rw [if_pos writes] at reports
    exact saves.accepts_iff.mp reports.accepted
  obtain ⟨solo, last, ran⟩ : ∃ solo last,
      exportAll loading.registry (request.only line) output [line] { desk with events := told } =
        .ok solo last :=
    exportAll_runs _ (List.forall_mem_singleton.mpr (clear line given))
      (List.forall_mem_singleton.mpr accepts) acceptsReport
  exact ⟨solo, last, alone.trans ran, exportAll_lines ran⟩

/-- The report of an export that gets to its end accounts for every line that was asked for. An
entry tells what the collection of its line came to and would be the same if the line had been
asked for alone, and the report can be read back from its file. -/
theorem exportLines_accounts (done : exportLines input output request desk = .ok report after) :
    ∃ loading lines, Prepares desk.files input request loading lines ∧
      ((request.lineIds.isNull = true ∧ lines = loading.registry.lines.members) ∨
        ∃ ids, request.lineIds.elements? = some (ids.map .scalar) ∧
          ExportRequest.Names loading.registry ids lines) ∧
      Accounts loading.registry request.window request.writeReport lines report ∧
      (∀ line ∈ lines,
        (entry loading.registry request.window line).Tells line
            (loading.registry.collect line request.window) ∧
          ∃ solo last, exportLines input output (request.only line) desk = .ok solo last ∧
            solo.lines = [entry loading.registry request.window line]) ∧
      (request.writeReport = true →
        after.files.HasFile output reportName (Document.render report.document).toUTF8 ∧
          ExportReport.ofDocument? report.document = some (report.lines, report.total)) := by
  obtain ⟨loading, lines, _, prepares, ran⟩ := prepares_of_done done
  exact ⟨loading, lines, prepares, ExportRequest.lines_cases prepares.requested,
    accounts_exportAll ran,
    fun line given => ⟨tells_entry _ _ line, exportLines_only prepares given done⟩,
    fun writes => ⟨exportAll_report ran writes, ExportReport.ofDocument?_document report⟩⟩

end

/-! ## Two ferries, of which one runs in January -/

def ferries : Row :=
  .object [
    ("stop_points", .list [.object [("id", .text "S")]]),
    ("timetables", .list [
      .object [("id", .text "T"),
        ("calendar_days", .list [.object [("date", .text "2024-01-05")]])],
      .object [("id", .text "U"),
        ("calendar_days", .list [.object [("date", .text "2024-02-05")]])]]),
    ("lines", .list [
      .object [("id", .text "L"), ("routes", .list [
        .object [("id", .text "R"), ("stop_points", .list [.text "S"]),
          ("journey_patterns", .list [.object [("id", .text "P"),
            ("vehicle_journeys", .list [.object [("id", .text "V"),
              ("timetables", .list [.text "T"])]])]])]])],
      .object [("id", .text "M"), ("routes", .list [
        .object [("id", .text "Q"), ("stop_points", .list [.text "S"]),
          ("journey_patterns", .list [.object [("id", .text "O"),
            ("vehicle_journeys", .list [.object [("id", .text "W"),
              ("timetables", .list [.text "U"])]])]])]])]])]

def ferriesPieces : List String :=
  ["\x7b\"stop_points\":[\x7b\"id\":\"S\"\x7d],",
    "\"timetables\":[\x7b\"id\":\"T\",\"calendar_days\":[\x7b\"date\":\"2024-01-05\"\x7d]\x7d,",
    "\x7b\"id\":\"U\",\"calendar_days\":[\x7b\"date\":\"2024-02-05\"\x7d]\x7d],",
    "\"lines\":[\x7b\"id\":\"L\",\"routes\":[\x7b\"id\":\"R\",\"stop_points\":[\"S\"],",
    "\"journey_patterns\":[\x7b\"id\":\"P\",\"vehicle_journeys\":",
    "[\x7b\"id\":\"V\",\"timetables\":[\"T\"]\x7d]\x7d]\x7d]\x7d,",
    "\x7b\"id\":\"M\",\"routes\":[\x7b\"id\":\"Q\",\"stop_points\":[\"S\"],",
    "\"journey_patterns\":[\x7b\"id\":\"O\",\"vehicle_journeys\":",
    "[\x7b\"id\":\"W\",\"timetables\":[\"U\"]\x7d]\x7d]\x7d]\x7d]\x7d"]

def ferriesDesk : Desk := deskOf ferriesPieces

def ferriesLoading : Loading := (Load.ended ferries).1

def januaryFerry : Line := { id := .text (.whole "L"), routeIds := [.text "R"] }

def februaryFerry : Line := { id := .text (.whole "M"), routeIds := [.text "Q"] }

/-- Both ferries, the second one first, up to the end of January 2024. -/
def january : ExportRequest where
  lineIds := .list [.text "M", .text "L"]
  window := ⟨none, some ⟨738915, by decide⟩⟩

def januaryEntry (line : Line) : LineReport := entry ferriesLoading.registry january.window line

theorem ferries_computed :
    isLoadable ferriesPieces ferries = true ∧
      (ferriesLoading.registry.validate
        (ferriesLoading.rejected.map Rejection.message)).any Verdict.isValid = true ∧
      ferriesLoading.registry.lines.members = [januaryFerry, februaryFerry] ∧
      (januaryEntry februaryFerry).state = .error ∧ (januaryEntry januaryFerry).state = .ok ∧
      (januaryEntry januaryFerry).tally.vehicleJourneys = 1 := by
  decide +kernel

theorem ferries_prepares :
    Prepares ferriesDesk.files "in.json" january ferriesLoading [februaryFerry, januaryFerry] where
  window := rfl
  loaded := load_of_document (read_of_isLoadable rfl ferries_computed.1)
    (sections_of_isLoadable ferries_computed.1)
  judged := (Option.any_eq_true _ _).mp ferries_computed.2.1
  requested := by
    have found : ∀ line ∈ [januaryFerry, februaryFerry],
        ferriesLoading.registry.lines.find? line.id = some line := by
      intro line given
      rw [← ferries_computed.2.2.1] at given
      exact Roster.find?_eq_some_iff.mpr ⟨given, rfl⟩
    have names : ExportRequest.Names ferriesLoading.registry
        [februaryFerry.id, januaryFerry.id] [februaryFerry, januaryFerry] :=
      .cons (found februaryFerry (by simp)) (.cons (found januaryFerry (by simp)) .nil)
    exact ExportRequest.lines_of_names rfl names

theorem ferries_accepts :
    (∀ line ∈ [februaryFerry, januaryFerry],
      ferriesDesk.files.Accepts "out" (closureName line.id)) ∧
    ferriesDesk.files.Accepts "out" reportName :=
  ⟨List.forall_mem_cons.mpr ⟨⟨_, _, rfl, rfl, rfl⟩,
    List.forall_mem_singleton.mpr ⟨_, _, rfl, rfl, rfl⟩⟩, ⟨_, _, rfl, rfl, rfl⟩⟩

/-- The ferry of February is an error without counts, and so the totals are those of the ferry of
January, which alone has a file. -/
theorem exportLines_accounts_ferries :
    ∃ report after, exportLines "in.json" "out" january ferriesDesk = .ok report after ∧
      report.lines = [januaryEntry februaryFerry, januaryEntry januaryFerry] ∧
      report.lines.map (·.state) = [.error, .ok] ∧
      (januaryEntry februaryFerry).errors = [⟨.noDataOnPeriod, .text "no data on period"⟩] ∧
      (januaryEntry februaryFerry).tally = {} ∧
      report.total.lines = 1 ∧ report.total.vehicleJourneys = 1 ∧
      (∀ name, name ∈ report.files ↔ name = "L.json" ∨ name = "report.json") ∧
      (∃ solo last, exportLines "in.json" "out" (january.only februaryFerry) ferriesDesk =
        .ok solo last ∧ solo.lines = [januaryEntry februaryFerry]) ∧
      after.files.HasFile "out" reportName (Document.render report.document).toUTF8 := by
  obtain ⟨_, report, after, run, _⟩ := ferries_prepares.runs ferries_accepts.1 ferries_accepts.2
  obtain ⟨loading, lines, prepares, _, accounts, told, reports⟩ := exportLines_accounts run
  obtain ⟨rfl, rfl⟩ := ferries_prepares.unique prepares
  obtain ⟨tells, alone⟩ := told februaryFerry List.mem_cons_self
  obtain ⟨_, _, _, error, ok, journeys⟩ := ferries_computed
  have entries : report.lines = [januaryEntry februaryFerry, januaryEntry januaryFerry] :=
    accounts.entries
  have exported : report.exported = [januaryEntry januaryFerry] := by
    rw [ExportReport.exported, entries]
    simp [error, ok]
  have invalid : (ferriesLoading.registry.collect februaryFerry january.window).valid = false :=
    Bool.eq_false_iff.mpr fun valid => by
      have same := error.symm.trans (tells.ok_iff.mpr valid)
      cases same
  have counted : Tally.vehicleJourneys ∈ Tally.counts :=
    List.mem_of_getElem? (show Tally.counts[3]? = some Tally.vehicleJourneys from rfl)
  have total := accounts.total _ counted
  rw [exported, List.map_singleton, List.sum_singleton, journeys] at total
  have names : ∀ name, name ∈ report.files ↔ name = "L.json" ∨ name = "report.json" := by
    intro name
    rw [accounts.files, List.exists_mem_cons_iff, List.exists_mem_cons_iff]
    change ((januaryEntry februaryFerry).state = .ok ∧ _ ∨
      (januaryEntry januaryFerry).state = .ok ∧ name = "L.json" ∨ _) ∨
        _ ∧ name = "report.json" ↔ _
    simp [error, ok, january]
  refine ⟨report, after, run, entries, ?_, ?_, tells.nothing invalid, ?_, total, names, alone,
    (reports rfl).1⟩
  · rw [entries, List.map_cons, List.map_singleton, error, ok]
  · rw [januaryEntry, tells.errors, invalid]
    rfl
  · rw [accounts.exported, exported]
    rfl

end Job
end LineClosure
