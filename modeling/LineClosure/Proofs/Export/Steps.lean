import LineClosure.Export.Job
import LineClosure.Proofs.Closure.Outcome
import LineClosure.Proofs.Snapshot.Runs
import LineClosure.Proofs.Storage.Writes

/-! The steps of an export. What comes before the first line is collected touches no file; each
line then adds its entry to the report and, if it has data, its file to the folder. -/

namespace LineClosure

open FileTree

namespace Job

def exportAll (r : Registry) (request : ExportRequest) (output : Text) (lines : List Line) :
    Job ExportReport := do
  let report ← lines.foldlM (exportLine r request.window output) {}
  if request.writeReport then
    return report.addFile (← writeReport output report)
  else return report

theorem judge_run {r : Registry} {rejected : List Text} {verdict : Verdict}
    (judged : r.validate rejected = some verdict) (desk : Desk) :
    judge r rejected desk = .ok verdict { desk with events := desk.events ++ verdict.events } := by
  unfold judge
  rw [judged]
  rfl

theorem load_of_failed {input : Text} {desk : Desk} {failure : Failure} {loading : Loading}
    (failed : Snapshot.load desk.files input {} = .error failure loading) :
    load input desk = .error failure { desk with events := desk.events ++ loading.events } := by
  unfold load
  rw [failed]

theorem load_of_loaded {input : Text} {desk : Desk} {loading : Loading}
    (loaded : Snapshot.load desk.files input {} = .ok () loading) :
    load input desk = .ok loading { desk with events := desk.events ++ loading.events } := by
  unfold load
  rw [loaded]

theorem validate_run {input : Text} {desk : Desk} {loading : Loading}
    (loaded : Snapshot.load desk.files input {} = .ok () loading) :
    validate input desk =
      match loading.registry.validate (loading.rejected.map Rejection.message) with
      | none => .error .unusableValue { desk with events := desk.events ++ loading.events }
      | some verdict =>
        .ok verdict { desk with events := desk.events ++ loading.events ++ verdict.events } := by
  refine (bind_ok (load_of_loaded loaded)).trans ?_
  cases judged : loading.registry.validate (loading.rejected.map Rejection.message) with
  | none =>
    unfold judge
    rw [judged]
    rfl
  | some verdict => exact judge_run judged _

theorem exportLines_run (input output : Text) (request : ExportRequest) (desk : Desk) :
    exportLines input output request desk =
      match request.checkWindow with
      | .error failure => .error failure desk
      | .ok _ =>
        match Snapshot.load desk.files input {} with
        | .error failure loading =>
          .error failure { desk with events := desk.events ++ loading.events }
        | .ok _ loading =>
          match loading.registry.validate (loading.rejected.map Rejection.message) with
          | none => .error .unusableValue { desk with events := desk.events ++ loading.events }
          | some verdict =>
            if verdict.isValid then
              match request.lines loading.registry with
              | .error failure =>
                .error failure
                  { desk with events := desk.events ++ loading.events ++ verdict.events }
              | .ok lines =>
                exportAll loading.registry request output lines
                  { desk with events := desk.events ++ loading.events ++ verdict.events }
            else
              .error (.invalidNetwork verdict.defects.length)
                { desk with events := desk.events ++ loading.events ++ verdict.events } := by
  unfold exportLines
  cases window : request.checkWindow with
  | error failure => rfl
  | ok _ =>
    dsimp only
    cases loaded : Snapshot.load desk.files input {} with
    | error failure loading => exact bind_error (load_of_failed loaded)
    | ok _ loading =>
      refine (bind_ok (load_of_loaded loaded)).trans ?_
      dsimp only
      cases judged : loading.registry.validate (loading.rejected.map Rejection.message) with
      | none =>
        apply bind_error
        unfold judge
        rw [judged]
        rfl
      | some verdict =>
        refine (bind_ok (judge_run judged _)).trans ?_
        dsimp only
        cases valid : verdict.isValid with
        | false => rfl
        | true =>
          cases requested : request.lines loading.registry with
          | error failure => rfl
          | ok lines => rfl

/-! ## Before the first line -/

/-- All that has to go right before the first line is collected. -/
structure Prepares (files : FileTree) (input : Text) (request : ExportRequest)
    (loading : Loading) (lines : List Line) : Prop where
  window : request.checkWindow = .ok ()
  loaded : Snapshot.load files input {} = .ok () loading
  judged : ∃ verdict,
    loading.registry.validate (loading.rejected.map Rejection.message) = some verdict ∧
      verdict.isValid = true
  requested : request.lines loading.registry = .ok lines

section
variable {input : Text} {request : ExportRequest} {desk : Desk} {loading : Loading}
  {lines : List Line}

theorem exportLines_of_prepares (output : Text)
    (prepares : Prepares desk.files input request loading lines) :
    ∃ events, exportLines input output request desk =
      exportAll loading.registry request output lines { desk with events } := by
  obtain ⟨window, loaded, ⟨verdict, judged, valid⟩, requested⟩ := prepares
  rw [exportLines_run, window, loaded]
  dsimp only
  rw [judged]
  dsimp only
  rw [if_pos valid, requested]
  exact ⟨_, rfl⟩

/-- An export fails before it touches a file, or it gets as far as its lines. -/
theorem exportLines_cases (input output : Text) (request : ExportRequest) (desk : Desk) :
    (∃ failure events,
      exportLines input output request desk = .error failure { desk with events }) ∨
    ∃ loading lines, Prepares desk.files input request loading lines := by
  rw [exportLines_run]
  cases window : request.checkWindow with
  | error failure => exact Or.inl ⟨failure, desk.events, rfl⟩
  | ok _ =>
    cases loaded : Snapshot.load desk.files input {} with
    | error failure loading => exact Or.inl ⟨failure, _, rfl⟩
    | ok _ loading =>
      cases judged : loading.registry.validate (loading.rejected.map Rejection.message) with
      | none => exact Or.inl ⟨_, _, by dsimp only; rw [judged]⟩
      | some verdict =>
        cases valid : verdict.isValid with
        | false =>
          refine Or.inl ⟨.invalidNetwork verdict.defects.length,
            desk.events ++ loading.events ++ verdict.events, ?_⟩
          dsimp only
          rw [judged]
          dsimp only
          rw [if_neg (by simp [valid])]
        | true =>
          cases requested : request.lines loading.registry with
          | error failure =>
            refine Or.inl ⟨failure, desk.events ++ loading.events ++ verdict.events, ?_⟩
            dsimp only
            rw [judged]
            dsimp only
            rw [if_pos valid, requested]
          | ok lines =>
            exact Or.inr ⟨loading, lines, window, loaded, ⟨verdict, judged, valid⟩, requested⟩

theorem prepares_of_done {output : Text} {report : ExportReport} {after : Desk}
    (done : exportLines input output request desk = .ok report after) :
    ∃ loading lines events, Prepares desk.files input request loading lines ∧
      exportAll loading.registry request output lines { desk with events } = .ok report after := by
  rcases exportLines_cases input output request desk with ⟨_, _, failed⟩ | prepared
  · rw [failed] at done
    cases done
  · obtain ⟨loading, lines, prepares⟩ := prepared
    obtain ⟨events, runs⟩ := exportLines_of_prepares output prepares
    exact ⟨loading, lines, events, prepares, runs.symm.trans done⟩

end

/-! ## Writing -/

theorem write_eq_ok_iff {folder name : Text} {document : Value} {desk after : Desk} :
    write folder name document desk = .ok () after ↔
      ∃ files, desk.files.Stores folder name (Document.render document).toUTF8 files ∧
        after = { desk with files } := by
  unfold write
  rw [get_bind]
  cases makes : desk.files.makeFolder folder with
  | error e =>
    refine iff_of_false (by intro same; cases same) ?_
    rintro ⟨_, ⟨makes', _, _⟩, _⟩
    rw [makes] at makes'
    cases makes'
  | ok made =>
    have enters : (modify fun desk => { desk with files := made } : Job PUnit) desk =
        .ok ⟨⟩ { desk with files := made } := rfl
    dsimp only
    rw [bind_ok enters]
    simp only [stores_iff_write makes]
    cases made.write folder name (Document.render document).toUTF8 with
    | error e =>
      exact iff_of_false (by intro same; cases same) (by rintro ⟨_, same, _⟩; cases same)
    | ok files =>
      constructor
      · intro done
        cases done
        exact ⟨files, rfl, rfl⟩
      · rintro ⟨other, same, rfl⟩
        cases same
        rfl

theorem writeReport_eq_ok_iff {folder name : Text} {report : ExportReport} {desk after : Desk} :
    writeReport folder report desk = .ok name after ↔
      name = reportName ∧ ∃ files,
        desk.files.Stores folder reportName (Document.render report.document).toUTF8 files ∧
          after = { desk with files } := by
  unfold writeReport
  rw [bind_eq_ok_iff]
  constructor
  · rintro ⟨_, _, writes, named⟩
    cases named
    exact ⟨rfl, write_eq_ok_iff.mp writes⟩
  · rintro ⟨rfl, writes⟩
    exact ⟨(), after, write_eq_ok_iff.mpr writes, rfl⟩

end Job

/-! ## One line -/

namespace Registry

variable {r : Registry} {line : Line} {window : Window}

theorem line_of_valid (valid : (r.collect line window).valid = true) :
    (r.collect line window).closure.line = some line := by
  rw [closure_collect, if_pos valid]
  rfl

def closureFile (r : Registry) (line : Line) (window : Window) : ByteArray :=
  (Document.render ((r.collect line window).closure.document line)).toUTF8

end Registry

namespace ExportReport

@[simp] theorem lines_addFile (report : ExportReport) (name : Text) :
    (report.addFile name).lines = report.lines := by
  unfold addFile
  split <;> rfl

@[simp] theorem total_addFile (report : ExportReport) (name : Text) :
    (report.addFile name).total = report.total := by
  unfold addFile
  split <;> rfl

@[simp] theorem document_addFile (report : ExportReport) (name : Text) :
    (report.addFile name).document = report.document := by
  unfold document
  rw [lines_addFile, total_addFile]

def enter (report : ExportReport) (r : Registry) (window : Window) (line : Line) :
    ExportReport :=
  let entry := Job.lineReport line (r.collect line window)
  if (r.collect line window).valid then
    { report.addFile (Job.closureName line.id) with
      lines := report.lines ++ [entry]
      total := report.total + entry.tally }
  else { report with lines := report.lines ++ [entry] }

end ExportReport

namespace Job

variable {r : Registry} {line : Line} {window : Window} {folder : Text}

def SavesLine (r : Registry) (window : Window) (folder : Text) (line : Line)
    (files saved : FileTree) : Prop :=
  if (r.collect line window).valid = true then
    files.Stores folder (closureName line.id) (r.closureFile line window) saved
  else saved = files

theorem collect_eq_ok_iff {collection : Collection} {desk after : Desk} :
    collect r line window desk = .ok collection after ↔
      (r.collect line window).obstructed? = none ∧ collection = r.collect line window ∧
        after = { desk with events := desk.events ++ collection.events } := by
  unfold collect
  cases obstructed : (r.collect line window).obstructed? with
  | some told => exact iff_of_false (by intro same; cases same) (by rintro ⟨same, _⟩; cases same)
  | none =>
    constructor
    · intro done
      cases done
      exact ⟨rfl, rfl, rfl⟩
    · rintro ⟨_, rfl, rfl⟩
      rfl

theorem writeClosure_eq_ok_iff {name : Text} {desk after : Desk}
    (valid : (r.collect line window).valid = true) :
    writeClosure folder (r.collect line window).closure desk = .ok name after ↔
      name = closureName line.id ∧ ∃ files,
        desk.files.Stores folder (closureName line.id) (r.closureFile line window) files ∧
          after = { desk with files } := by
  unfold writeClosure
  rw [Registry.line_of_valid valid]
  dsimp only
  rw [bind_eq_ok_iff]
  constructor
  · rintro ⟨_, _, writes, named⟩
    cases named
    exact ⟨rfl, write_eq_ok_iff.mp writes⟩
  · rintro ⟨rfl, writes⟩
    exact ⟨(), after, write_eq_ok_iff.mpr writes, rfl⟩

theorem exportLine_spec {report next : ExportReport} {desk after : Desk}
    (done : exportLine r window folder report line desk = .ok next after) :
    (r.collect line window).obstructed? = none ∧ next = report.enter r window line ∧
      SavesLine r window folder line desk.files after.files := by
  obtain ⟨_, between, collected, rest⟩ := bind_eq_ok_iff.mp done
  obtain ⟨clear, rfl, rfl⟩ := collect_eq_ok_iff.mp collected
  refine ⟨clear, ?_⟩
  unfold ExportReport.enter SavesLine
  dsimp only at rest ⊢
  by_cases valid : (r.collect line window).valid = true
  · rw [if_pos valid] at rest ⊢
    rw [if_pos valid]
    obtain ⟨_, _, wrote, last⟩ := bind_eq_ok_iff.mp rest
    obtain ⟨rfl, files, stores, rfl⟩ := (writeClosure_eq_ok_iff valid).mp wrote
    cases last
    exact ⟨by simp, stores⟩
  · rw [if_neg valid] at rest ⊢
    rw [if_neg valid]
    obtain ⟨_, _, tells, last⟩ := bind_eq_ok_iff.mp rest
    cases tells
    cases last
    exact ⟨rfl, rfl⟩

theorem exportLine_runs (report : ExportReport) (desk : Desk)
    (clear : (r.collect line window).obstructed? = none)
    (accepts : (r.collect line window).valid = true →
      desk.files.Accepts folder (closureName line.id)) :
    ∃ next after, exportLine r window folder report line desk = .ok next after := by
  have collected : collect r line window desk =
      .ok (r.collect line window)
        { desk with events := desk.events ++ (r.collect line window).events } :=
    collect_eq_ok_iff.mpr ⟨clear, rfl, rfl⟩
  unfold exportLine
  rw [bind_ok collected]
  dsimp only
  by_cases valid : (r.collect line window).valid = true
  · rw [if_pos valid]
    obtain ⟨files, stores⟩ := stores_of_accepts (accepts valid) (r.closureFile line window)
    exact ⟨_, _, bind_ok ((writeClosure_eq_ok_iff valid).mpr ⟨rfl, files, stores, rfl⟩)⟩
  · rw [if_neg valid]
    exact ⟨_, _, bind_ok rfl⟩

/-! ## One line after the other -/

inductive SavesLines (r : Registry) (window : Window) (folder : Text) :
    List Line → FileTree → FileTree → Prop where
  | nil (files : FileTree) : SavesLines r window folder [] files files
  | cons {line : Line} {rest : List Line} {files between saved : FileTree}
    (first : SavesLine r window folder line files between)
    (later : SavesLines r window folder rest between saved) :
    SavesLines r window folder (line :: rest) files saved

theorem SavesLine.accepts_iff {files saved : FileTree} {name : Text}
    (saves : SavesLine r window folder line files saved) :
    saved.Accepts folder name ↔ files.Accepts folder name := by
  unfold SavesLine at saves
  split at saves
  · exact saves.accepts_iff
  · rw [saves]

theorem SavesLines.accepts_iff {lines : List Line} {files saved : FileTree} {name : Text}
    (saves : SavesLines r window folder lines files saved) :
    saved.Accepts folder name ↔ files.Accepts folder name := by
  induction saves with
  | nil files => exact Iff.rfl
  | cons first _ ih => rw [ih, first.accepts_iff]

theorem exportEach_spec {lines : List Line} {report next : ExportReport} {desk after : Desk}
    (done : lines.foldlM (exportLine r window folder) report desk = .ok next after) :
    (∀ line ∈ lines, (r.collect line window).obstructed? = none) ∧
      next = lines.foldl (fun report line => report.enter r window line) report ∧
      SavesLines r window folder lines desk.files after.files := by
  induction lines generalizing report desk with
  | nil =>
    cases done
    exact ⟨fun _ given => absurd given List.not_mem_nil, rfl, .nil _⟩
  | cons line rest ih =>
    rw [List.foldlM_cons] at done
    obtain ⟨entered, between, first, later⟩ := bind_eq_ok_iff.mp done
    obtain ⟨clear, rfl, saves⟩ := exportLine_spec first
    obtain ⟨clears, same, more⟩ := ih later
    exact ⟨List.forall_mem_cons.mpr ⟨clear, clears⟩, same, .cons saves more⟩

theorem exportEach_runs {lines : List Line} (report : ExportReport) (desk : Desk)
    (clear : ∀ line ∈ lines, (r.collect line window).obstructed? = none)
    (accepts : ∀ line ∈ lines, (r.collect line window).valid = true →
      desk.files.Accepts folder (closureName line.id)) :
    ∃ next after, lines.foldlM (exportLine r window folder) report desk = .ok next after := by
  induction lines generalizing report desk with
  | nil => exact ⟨report, desk, rfl⟩
  | cons line rest ih =>
    obtain ⟨entered, between, first⟩ := exportLine_runs report desk
      (clear line List.mem_cons_self) (accepts line List.mem_cons_self)
    obtain ⟨_, _, saves⟩ := exportLine_spec first
    -- what was accepted at the start still is, whatever has been written since
    obtain ⟨next, after, later⟩ := ih entered between
      (fun other given => clear other (List.mem_cons_of_mem line given))
      (fun other given valid =>
        saves.accepts_iff.mpr (accepts other (List.mem_cons_of_mem line given) valid))
    refine ⟨next, after, ?_⟩
    rw [List.foldlM_cons]
    exact (bind_ok first).trans later

/-! ## All lines and the report -/

/-- The report of some lines, its own file not in it. -/
def reportOf (r : Registry) (window : Window) (lines : List Line) : ExportReport :=
  lines.foldl (fun report line => report.enter r window line) {}

def SavesReport (request : ExportRequest) (output : Text) (report : ExportReport)
    (files saved : FileTree) : Prop :=
  if request.writeReport = true then
    files.Stores output reportName (Document.render report.document).toUTF8 saved
  else saved = files

section
variable {request : ExportRequest} {output : Text} {lines : List Line}

theorem exportAll_spec {report : ExportReport} {desk after : Desk}
    (done : exportAll r request output lines desk = .ok report after) :
    (∀ line ∈ lines, (r.collect line request.window).obstructed? = none) ∧
      report = (if request.writeReport then
        (reportOf r request.window lines).addFile reportName
        else reportOf r request.window lines) ∧
      ∃ between, SavesLines r request.window output lines desk.files between ∧
        SavesReport request output (reportOf r request.window lines) between after.files := by
  obtain ⟨entered, between, each, rest⟩ := bind_eq_ok_iff.mp done
  obtain ⟨clear, rfl, saves⟩ := exportEach_spec each
  refine ⟨clear, ?_⟩
  unfold SavesReport
  by_cases writes : request.writeReport = true
  · rw [if_pos writes] at rest ⊢
    obtain ⟨_, _, wrote, last⟩ := bind_eq_ok_iff.mp rest
    obtain ⟨rfl, files, stores, rfl⟩ := writeReport_eq_ok_iff.mp wrote
    cases last
    refine ⟨rfl, between.files, saves, ?_⟩
    rw [if_pos writes]
    exact stores
  · rw [if_neg writes] at rest ⊢
    cases rest
    refine ⟨rfl, _, saves, ?_⟩
    rw [if_neg writes]

theorem exportAll_runs (desk : Desk)
    (clear : ∀ line ∈ lines, (r.collect line request.window).obstructed? = none)
    (accepts : ∀ line ∈ lines, (r.collect line request.window).valid = true →
      desk.files.Accepts output (closureName line.id))
    (acceptsReport : request.writeReport = true → desk.files.Accepts output reportName) :
    ∃ report after, exportAll r request output lines desk = .ok report after := by
  obtain ⟨entered, between, each⟩ := exportEach_runs {} desk clear accepts
  obtain ⟨_, _, saves⟩ := exportEach_spec each
  unfold exportAll
  rw [bind_ok each]
  by_cases writes : request.writeReport = true
  · rw [if_pos writes]
    have still := saves.accepts_iff.mpr (acceptsReport writes)
    obtain ⟨files, stores⟩ :=
      stores_of_accepts still (Document.render entered.document).toUTF8
    exact ⟨_, _, bind_ok (writeReport_eq_ok_iff.mpr ⟨rfl, files, stores, rfl⟩)⟩
  · rw [if_neg writes]
    exact ⟨_, _, rfl⟩

end
end Job
end LineClosure
