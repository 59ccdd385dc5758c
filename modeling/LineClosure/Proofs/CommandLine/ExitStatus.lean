import LineClosure.CommandLine.Program
import LineClosure.Proofs.Export.Accounting
import LineClosure.Proofs.Validation.WholeMessages

/-! The exit status of the program. It is 0 just if there is something to show for: an export has
a line with data, or a network was found valid. Whatever goes wrong in a job makes it 1, and then
no closure has been written, at most a report of lines without data. What is printed has no halves
of pairs in it, if the snapshot has none. -/

namespace LineClosure

open FileTree

/-- What an export may tell of a line can be printed, and its identifier can be the stem of a file
name. -/
structure Line.IsPrintable (line : Line) : Prop where
  stem : line.id.IsStem
  name : line.name.display.IsWhole
  number : line.number.display.IsWhole

namespace Job

theorem isWhole_entry {line : Line} (printable : line.IsPrintable) (r : Registry)
    (window : Window) :
    ((entry r window line).lineId.display ++ " " ++ (entry r window line).name.display ++ ": " ++
      (entry r window line).state.text).IsWhole := by
  obtain ⟨⟨id, named, _⟩, name, number⟩ := printable
  have called : line.id.display.IsWhole := ⟨id, by rw [named]; rfl⟩
  have titled : (line.name.display ++ " (" ++ line.number.display ++ ")").IsWhole :=
    ((name.then_string " (").append number).then_string ")"
  exact (((called.then_string " ").append titled).then_string ": ").then_string _

section
variable {input output : Text} {request : ExportRequest} {desk after : Desk} {loading : Loading}
  {lines : List Line} {report : ExportReport}

theorem files_of_failed {failure : Failure}
    (failed : exportLines input output request desk = .error failure after)
    (accepts : ∀ loading, Snapshot.load desk.files input {} = .ok () loading →
      ∀ line ∈ loading.registry.lines.members, desk.files.Accepts output (closureName line.id))
    (acceptsReport : desk.files.Accepts output reportName) : after.files = desk.files := by
  rcases exportLines_cases input output request desk with ⟨_, _, early⟩ | ⟨loading, lines, prepares⟩
  · rw [failed] at early
    cases early
    rfl
  · have registered := ExportRequest.mem_of_requested prepares.requested
    obtain ⟨_, _, _, done, _⟩ := prepares.runs
      (fun line given => accepts loading prepares.loaded line (registered line given)) acceptsReport
    rw [failed] at done
    cases done

theorem SavesLines.of_invalid {r : Registry} {window : Window} {files saved : FileTree}
    (saves : SavesLines r window output lines files saved)
    (invalid : ∀ line ∈ lines, ¬(r.collect line window).valid = true) : saved = files := by
  induction saves with
  | nil => rfl
  | @cons line rest files between saved first _ ih =>
    rw [ih fun next given => invalid next (List.mem_cons_of_mem line given)]
    unfold SavesLine at first
    rwa [if_neg (invalid line List.mem_cons_self)] at first

theorem savesReport_of_idle (done : exportLines input output request desk = .ok report after)
    (idle : ∀ line ∈ report.lines, line.state ≠ .ok) :
    SavesReport request output report desk.files after.files := by
  obtain ⟨loading, lines, events, prepares, ran⟩ := prepares_of_done done
  have entries := exportAll_lines ran
  obtain ⟨_, reported, between, saves, reports⟩ := exportAll_spec ran
  have invalid : ∀ line ∈ lines,
      ¬(loading.registry.collect line request.window).valid = true := by
    intro line given valid
    apply idle (entry loading.registry request.window line)
    · rw [entries]
      exact List.mem_map_of_mem given
    · exact (tells_entry _ _ _).ok_iff.mpr valid
  obtain rfl := saves.of_invalid invalid
  have same : report.document = (reportOf loading.registry request.window lines).document := by
    rw [reported]
    split <;> simp
  unfold SavesReport at reports ⊢
  rwa [same]

/-- Whether the report is written makes no difference to its lines. -/
theorem lines_of_trial {trial : ExportReport} {last : Desk}
    (tried : exportLines input output { request with writeReport := false } desk = .ok trial last)
    (done : exportLines input output request desk = .ok report after) :
    report.lines = trial.lines := by
  obtain ⟨loading, lines, _, prepares, ran⟩ := prepares_of_done done
  obtain ⟨other, others, _, alike, triedToo⟩ := prepares_of_done tried
  have also : Prepares desk.files input request other others :=
    ⟨alike.window, alike.loaded, alike.judged, alike.requested⟩
  obtain ⟨rfl, rfl⟩ := prepares.unique also
  rw [exportAll_lines ran, exportAll_lines triedToo]

end

theorem validate_cases (input : Text) (desk : Desk) :
    (∃ failure events, validate input desk = .error failure { desk with events }) ∨
    ∃ loading verdict events, Snapshot.load desk.files input {} = .ok () loading ∧
      loading.registry.validate (loading.rejected.map Rejection.message) = some verdict ∧
      validate input desk = .ok verdict { desk with events } := by
  cases loaded : Snapshot.load desk.files input {} with
  | error failure loading => exact Or.inl ⟨failure, _, bind_error (load_of_failed loaded)⟩
  | ok _ loading =>
    rw [validate_run loaded]
    cases judged : loading.registry.validate (loading.rejected.map Rejection.message) with
    | none => exact Or.inl ⟨_, _, rfl⟩
    | some verdict => exact Or.inr ⟨loading, verdict, _, rfl, judged, rfl⟩

end Job

namespace CommandLine

theorem isWhole_lines {texts : List Text} (each : ∀ t ∈ texts, t.IsWhole) :
    (lines texts).IsWhole := by
  have behind : ∀ before : Text, before.IsWhole →
      (texts.foldl (fun (output text : Text) => output ++ text ++ "\n") before).IsWhole := by
    induction texts with
    | nil => exact fun _ whole => whole
    | cons t rest ih =>
      intro before whole
      apply ih fun other later => each other (List.mem_cons_of_mem t later)
      exact (whole.append (each t List.mem_cons_self)).append (Text.isWhole_string "\n")
  exact behind "" (Text.isWhole_string "")

theorem isWhole_strings (texts : List String) : (lines (texts.map Text.whole)).IsWhole :=
  isWhole_lines (List.forall_mem_map.mpr fun text _ => Text.isWhole_string text)

theorem isWhole_items {texts : List Text} (each : ∀ t ∈ texts, t.IsWhole) :
    (items texts).IsWhole := by
  apply isWhole_lines
  intro item given
  obtain ⟨t, listed, rfl⟩ := List.mem_map.mp given
  exact (Text.isWhole_string "  - ").append (each t listed)

section
variable {s : Settings} {input output : Text} {desk : Desk}

theorem Settings.output_of_isComplete (whole : s.isComplete = true) :
    ∃ output, s.output = some output := by
  apply Option.isSome_iff_exists.mp
  unfold isComplete at whole
  rw [Bool.and_assoc] at whole
  exact ((Bool.and_eq_true _ _).mp whole).1

theorem exportJob_of_complete (whole : s.isComplete = true) (given : s.input = some input)
    (folder : s.output = some output) :
    exportJob s desk = Job.exportLines input output s.request desk := by
  unfold exportJob
  have usable : s.clashes = false := by
    unfold Settings.isComplete at whole
    simp only [Bool.and_eq_true, decide_eq_true_eq] at whole
    unfold Settings.clashes
    split
    · next finish => exact absurd finish whole.2
    · next start _ => exact absurd start whole.1.2
    · rfl
  rw [usable, given, folder, whole]
  cases window : s.request.checkWindow with
  | error failure =>
    rw [Job.exportLines_run, window]
    rfl
  | ok _ => rfl

/-- A job that misses a value fails before it touches anything, or it only misses a bound, and no
line has data. -/
theorem exportJob_of_incomplete (missing : s.isComplete = false ∨ s.input = none) (desk : Desk) :
    (∃ failure, exportJob s desk = .error failure desk) ∨
    ∃ input output trial last, s.input = some input ∧ s.output = some output ∧
      exportJob s desk = Job.exportLines input output s.request desk ∧
      Job.exportLines input output { s.request with writeReport := false } desk = .ok trial last ∧
      ∀ line ∈ trial.lines, line.state ≠ .ok := by
  unfold exportJob
  by_cases clash : s.clashes = true
  · rw [if_pos clash]
    exact Or.inl ⟨_, rfl⟩
  rw [if_neg clash]
  cases window : s.request.checkWindow with
  | error failure => exact Or.inl ⟨failure, rfl⟩
  | ok _ =>
    dsimp only
    cases given : s.input with
    | none => exact Or.inl ⟨_, rfl⟩
    | some input =>
      have incomplete : s.isComplete = false := missing.resolve_right (by simp [given])
      dsimp only
      rw [incomplete, Bool.not_false, if_pos rfl, get_bind]
      -- with a value missing, it is first run without a report to see whether any line has data
      cases tried : Job.exportLines input (s.output.getD "")
          { s.request with writeReport := false } desk with
      | error failure last => exact Or.inl ⟨failure, rfl⟩
      | ok trial last =>
        dsimp only
        cases folder : s.output with
        | none => exact Or.inl ⟨.unusableValue, rfl⟩
        | some output =>
          rw [folder] at tried
          cases data : trial.lines.any fun line => line.state = .ok with
          | true => exact Or.inl ⟨.unusableValue, rfl⟩
          | false =>
            refine Or.inr ⟨input, output, trial, last, rfl, rfl, rfl, tried, ?_⟩
            simpa using data

end

/-! ## What the status tells -/

/-- The lines of the snapshot and the folder for the output can be printed, and the file system
refuses none of the files that an export may write there. -/
structure Settings.Fits (s : Settings) (files : FileTree) : Prop where
  lines : ∀ input loading, s.input = some input → Snapshot.load files input {} = .ok () loading →
    ∀ line ∈ loading.registry.lines.members, line.IsPrintable
  folder : ∀ output, s.output = some output → output.IsWhole
  accepts : ∀ input output loading, s.input = some input → s.output = some output →
    Snapshot.load files input {} = .ok () loading →
    ∀ line ∈ loading.registry.lines.members, files.Accepts output (Job.closureName line.id)
  report : ∀ output, s.output = some output → files.Accepts output Job.reportName

def Settings.Exports (s : Settings) (files : FileTree) (report : ExportReport) (after : Desk) :
    Prop :=
  ∃ input output, s.input = some input ∧ s.output = some output ∧ s.isComplete = true ∧
    Job.exportLines input output s.request { files } = .ok report after

structure Exit.TellsExport (exit : Exit) (s : Settings) (files : FileTree) : Prop where
  printed : exit.output.IsWhole
  status : exit.code = 0 ↔
    ∃ report after, s.Exports files report after ∧ ∃ line ∈ report.lines, line.state = .ok
  otherwise : exit.code ≠ 0 → exit.code = 1
  failed : ∀ failure after, exportJob s { files } = .error failure after →
    exit = ⟨1, "", complain failure, files⟩
  unwritten : exit.code = 1 → exit.files = files ∨
    ∃ input output report after, s.input = some input ∧ s.output = some output ∧
      Job.exportLines input output s.request { files } = .ok report after ∧
      (∀ line ∈ report.lines, line.state = .error) ∧ s.report = true ∧
      files.Stores output Job.reportName (Document.render report.document).toUTF8 exit.files

/-- Every text of the snapshot can be printed. -/
def Settings.ReadsWhole (s : Settings) (files : FileTree) : Prop :=
  ∀ input document, s.input = some input → Snapshot.document files input = .ok document →
    document.IsWhole

structure Exit.TellsVerdict (exit : Exit) (s : Settings) (files : FileTree) : Prop where
  printed : s.ReadsWhole files → exit.output.IsWhole
  status : exit.code = 0 ↔ ∃ input verdict after, s.input = some input ∧
    Job.validate input { files } = .ok verdict after ∧ verdict.isValid = true
  otherwise : exit.code ≠ 0 → exit.code = 1
  failed : ∀ failure after, validateJob s { files } = .error failure after →
    exit = ⟨1, "", complain failure, files⟩
  unwritten : exit.files = files

section
variable {s : Settings} {files : FileTree} {report : ExportReport} {after : Desk}

/-- A job that fails has touched no file; any other one is an export, and without all values in
their places one that found no data. -/
theorem exportJob_spec (fits : s.Fits files) :
    (∀ failure after, exportJob s { files } = .error failure after → after.files = files) ∧
    ∀ report after, exportJob s { files } = .ok report after →
      ∃ input output, s.input = some input ∧ s.output = some output ∧
        Job.exportLines input output s.request { files } = .ok report after ∧
        (s.isComplete = true ∨ ∀ line ∈ report.lines, line.state ≠ .ok) := by
  have kept : ∀ input output, s.input = some input → s.output = some output →
      ∀ failure after, Job.exportLines input output s.request { files } = .error failure after →
        after.files = files := fun input output given folder _ _ failed =>
    Job.files_of_failed failed (fun loading => fits.accepts input output loading given folder)
      (fits.report output folder)
  by_cases missing : s.isComplete = false ∨ s.input = none
  · rcases exportJob_of_incomplete missing { files } with ⟨failure, failed⟩ |
      ⟨input, output, trial, last, given, folder, runs, tried, idle⟩
    · rw [failed]
      constructor
      · intro _ _ same
        cases same
        rfl
      · intro _ _ same
        cases same
    · rw [runs]
      refine ⟨kept input output given folder, fun report after done => ?_⟩
      refine ⟨input, output, given, folder, done, Or.inr ?_⟩
      rw [Job.lines_of_trial tried done]
      exact idle
  · obtain ⟨complete, present⟩ := not_or.mp missing
    have whole : s.isComplete = true := by simpa using complete
    obtain ⟨input, given⟩ := Option.ne_none_iff_exists'.mp present
    obtain ⟨output, folder⟩ := Settings.output_of_isComplete whole
    rw [exportJob_of_complete whole given folder]
    exact ⟨kept input output given folder, fun _ _ done =>
      ⟨input, output, given, folder, done, Or.inl whole⟩⟩

theorem runExport_of_done (done : exportJob s { files } = .ok report after) :
    (runExport s files).files = after.files ∧
      ((runExport s files).code = 0 ∧ (∃ line ∈ report.lines, line.state = .ok) ∨
        (runExport s files).code = 1 ∧ ∀ line ∈ report.lines, line.state = .error) := by
  unfold runExport
  rw [done]
  dsimp only
  split
  · next data =>
    have some : ∃ line ∈ report.lines, line.state = .ok := by simpa using data
    exact ⟨rfl, Or.inl ⟨rfl, some⟩⟩
  · next idle =>
    refine ⟨rfl, Or.inr ⟨rfl, fun line given => ?_⟩⟩
    cases state : line.state with
    | error => rfl
    | ok => exact absurd (List.any_eq_true.mpr ⟨line, given, decide_eq_true state⟩) idle

theorem isWhole_of_done (fits : s.Fits files) (done : exportJob s { files } = .ok report after) :
    (runExport s files).output.IsWhole := by
  obtain ⟨input, output, given, folder, ran, _⟩ := (exportJob_spec fits).2 report after done
  obtain ⟨loading, chosen, events, prepares, all⟩ := Job.prepares_of_done ran
  have registered := ExportRequest.mem_of_requested prepares.requested
  have shown : ∀ told ∈ report.lines,
      (told.lineId.display ++ " " ++ told.name.display ++ ": " ++ told.state.text).IsWhole := by
    intro told listed
    rw [Job.exportAll_lines all] at listed
    obtain ⟨line, asked, rfl⟩ := List.mem_map.mp listed
    exact Job.isWhole_entry
      (fits.lines input loading given prepares.loaded line (registered line asked)) _ _
  have heading : ("Output: " ++ s.output.getD "").IsWhole := by
    rw [folder]
    exact (fits.folder output folder).after_string _
  have first : (lines ["", "Export finished!", "Output: " ++ s.output.getD ""]).IsWhole :=
    isWhole_lines <| List.forall_mem_cons.mpr ⟨Text.isWhole_string _,
      List.forall_mem_cons.mpr ⟨Text.isWhole_string _, List.forall_mem_singleton.mpr heading⟩⟩
  have last : (lines ["Stats: " ++ report.total.describe]).IsWhole := isWhole_strings ["Stats: " ++ _]
  have middle : (items (report.lines.map fun line =>
      line.lineId.display ++ " " ++ line.name.display ++ ": " ++ line.state.text)).IsWhole :=
    isWhole_items (List.forall_mem_map.mpr shown)
  unfold runExport
  rw [done]
  dsimp only
  split <;> exact (first.append middle).append last

theorem runExport_of_failed {failure : Failure} (fits : s.Fits files)
    (failed : exportJob s { files } = .error failure after) :
    runExport s files = ⟨1, "", complain failure, files⟩ := by
  have kept := (exportJob_spec fits).1 failure after failed
  unfold runExport
  rw [failed]
  dsimp only
  rw [kept]

theorem exports_iff (fits : s.Fits files) :
    s.Exports files report after ↔
      s.isComplete = true ∧ exportJob s { files } = .ok report after := by
  constructor
  · rintro ⟨input, output, given, folder, whole, done⟩
    exact ⟨whole, (exportJob_of_complete whole given folder).trans done⟩
  · rintro ⟨whole, ran⟩
    obtain ⟨input, output, given, folder, done, _⟩ := (exportJob_spec fits).2 report after ran
    exact ⟨input, output, given, folder, whole, done⟩

theorem runExport_zero_iff (fits : s.Fits files) :
    (runExport s files).code = 0 ↔
      ∃ report after, s.Exports files report after ∧ ∃ line ∈ report.lines, line.state = .ok := by
  constructor
  · intro zero
    cases ran : exportJob s { files } with
    | error failure after =>
      rw [runExport_of_failed fits ran] at zero
      cases zero
    | ok report after =>
      rcases (runExport_of_done ran).2 with ⟨_, line, listed, data⟩ | ⟨one, _⟩
      · obtain ⟨_, _, _, _, _, sort⟩ := (exportJob_spec fits).2 report after ran
        have whole := sort.resolve_right fun idle => idle line listed data
        exact ⟨report, after, (exports_iff fits).mpr ⟨whole, ran⟩, line, listed, data⟩
      · cases one.symm.trans zero
  · rintro ⟨report, after, exports, line, listed, data⟩
    rcases (runExport_of_done ((exports_iff fits).mp exports).2).2 with ⟨zero, _⟩ | ⟨_, idle⟩
    · exact zero
    · cases (idle line listed).symm.trans data

theorem unwritten_of_idle (fits : s.Fits files) (ran : exportJob s { files } = .ok report after)
    (idle : ∀ line ∈ report.lines, line.state = .error) :
    after.files = files ∨
    ∃ input output, s.input = some input ∧ s.output = some output ∧
      Job.exportLines input output s.request { files } = .ok report after ∧ s.report = true ∧
      files.Stores output Job.reportName (Document.render report.document).toUTF8 after.files := by
  obtain ⟨input, output, given, folder, done, _⟩ := (exportJob_spec fits).2 report after ran
  have saves := Job.savesReport_of_idle done fun line listed data => by
    cases (idle line listed).symm.trans data
  unfold Job.SavesReport at saves
  split at saves
  · next writes => exact Or.inr ⟨input, output, given, folder, done, writes, saves⟩
  · exact Or.inl saves

theorem tellsExport (fits : s.Fits files) : (runExport s files).TellsExport s files := by
  have status := runExport_zero_iff fits
  cases ran : exportJob s { files } with
  | error failure after =>
    have ended := runExport_of_failed fits ran
    rw [ended] at status ⊢
    refine ⟨Text.isWhole_string "", status, fun _ => rfl, fun _ _ same => ?_, fun _ => Or.inl rfl⟩
    cases ran.symm.trans same
    rfl
  | ok report after =>
    obtain ⟨kept, outcome⟩ := runExport_of_done ran
    refine ⟨isWhole_of_done fits ran, status, fun nonzero => ?_, fun _ _ same => ?_, fun one => ?_⟩
    · exact (outcome.resolve_left fun data => nonzero data.1).1
    · cases ran.symm.trans same
    · obtain ⟨_, idle⟩ := outcome.resolve_left fun data => by cases data.1.symm.trans one
      rw [kept]
      apply (unwritten_of_idle fits ran idle).imp_right
      rintro ⟨input, output, given, folder, done, writes, stores⟩
      exact ⟨input, output, report, after, given, folder, done, idle, writes, stores⟩

theorem validateJob_cases (s : Settings) (files : FileTree) :
    (∃ failure events, validateJob s { files } = .error failure { files, events }) ∨
    ∃ input loading verdict events, s.input = some input ∧
      Snapshot.load files input {} = .ok () loading ∧
      loading.registry.validate (loading.rejected.map Rejection.message) = some verdict ∧
      validateJob s { files } = .ok verdict { files, events } := by
  unfold validateJob
  cases s.input with
  | none => exact Or.inl ⟨.unusableValue, [], rfl⟩
  | some input =>
    apply (Job.validate_cases input { files }).imp_right
    rintro ⟨loading, verdict, events, loaded, judged, done⟩
    exact ⟨input, loading, verdict, events, rfl, loaded, judged, done⟩

theorem validateJob_eq_ok_iff {verdict : Verdict} :
    validateJob s { files } = .ok verdict after ↔
      ∃ input, s.input = some input ∧ Job.validate input { files } = .ok verdict after := by
  unfold validateJob
  cases s.input with
  | none => exact iff_of_false (by intro same; cases same) (by rintro ⟨_, same, _⟩; cases same)
  | some input => simp only [Option.some.injEq, exists_eq_left']

theorem runValidate_of_done {verdict : Verdict}
    (done : validateJob s { files } = .ok verdict after) :
    (runValidate s files).files = after.files ∧
      (runValidate s files).code = if verdict.isValid then 0 else 1 := by
  unfold runValidate
  rw [done]
  dsimp only
  split <;> exact ⟨rfl, rfl⟩

theorem runValidate_zero_iff :
    (runValidate s files).code = 0 ↔ ∃ input verdict after, s.input = some input ∧
      Job.validate input { files } = .ok verdict after ∧ verdict.isValid = true := by
  constructor
  · intro zero
    cases ran : validateJob s { files } with
    | error failure after =>
      rw [runValidate, ran] at zero
      cases zero
    | ok verdict after =>
      obtain ⟨input, given, done⟩ := validateJob_eq_ok_iff.mp ran
      rw [(runValidate_of_done ran).2] at zero
      split at zero
      · next valid => exact ⟨input, verdict, after, given, done, valid⟩
      · cases zero
  · rintro ⟨input, verdict, after, given, done, valid⟩
    rw [(runValidate_of_done (validateJob_eq_ok_iff.mpr ⟨input, given, done⟩)).2, if_pos valid]

theorem isWhole_runValidate {verdict : Verdict} (done : validateJob s { files } = .ok verdict after)
    (defects : ∀ defect ∈ verdict.defects, defect.message.IsWhole)
    (doubts : ∀ doubt ∈ verdict.doubts, doubt.message.IsWhole) :
    (runValidate s files).output.IsWhole := by
  have warnings : (items (verdict.doubts.map Doubt.message)).IsWhole :=
    isWhole_items (List.forall_mem_map.mpr doubts)
  have errors : (items (verdict.defects.map Defect.message)).IsWhole :=
    isWhole_items (List.forall_mem_map.mpr defects)
  rw [runValidate, done]
  dsimp only
  split
  · apply Text.IsWhole.append
    · exact isWhole_strings ["", "Validation successful!", "Stats: " ++ _]
    · split
      · exact Text.isWhole_string ""
      · exact (isWhole_strings ["Warnings (" ++ _ ++ "):"]).append warnings
  · exact (isWhole_strings ["", _]).append errors

theorem tellsVerdict (s : Settings) (files : FileTree) :
    (runValidate s files).TellsVerdict s files := by
  have status : (runValidate s files).code = 0 ↔ _ := runValidate_zero_iff
  rcases validateJob_cases s files with
    ⟨failure, events, ran⟩ | ⟨input, loading, verdict, events, given, loaded, judged, ran⟩
  · have ended : runValidate s files = ⟨1, "", complain failure, files⟩ := by
      rw [runValidate, ran]
    rw [ended] at status ⊢
    refine ⟨fun _ => Text.isWhole_string "", status, fun _ => rfl, fun _ _ same => ?_, rfl⟩
    cases ran.symm.trans same
    rfl
  · obtain ⟨kept, code⟩ := runValidate_of_done ran
    refine ⟨fun reads => ?_, status, fun nonzero => ?_, fun _ _ same => ?_, kept⟩
    · obtain ⟨document, read, sections⟩ := Job.sections_of_load loaded
      have whole := Load.isWhole_of_sections (reads input document given read) sections
      obtain ⟨defects, doubts⟩ := Registry.isWhole_of_validate whole judged
      exact isWhole_runValidate ran defects doubts
    · rw [code] at nonzero ⊢
      exact if_neg fun valid => nonzero (if_pos valid)
    · cases ran.symm.trans same

end

/-- The program ends with 0 just if an export reports a line with data or a validation finds no
defect, and with 1 otherwise, whatever went wrong. If an export ends with 1 no closure was written:
either no file was touched, or all that is new is a report in which no line has data. A validation
never touches a file. What is printed has no halves of pairs in it, if the texts that it is made of
have none. -/
theorem exitStatus {arguments : List Text} {settings : Settings}
    (read : readSettings arguments = .ok settings) (files : FileTree) :
    (settings.command = some "export" → settings.Fits files →
      (runProgram arguments files).TellsExport settings files) ∧
    (settings.command = some "validate" →
      (runProgram arguments files).TellsVerdict settings files) := by
  constructor
  · intro command fits
    unfold runProgram
    rw [read]
    dsimp only
    rw [command]
    exact tellsExport fits
  · intro command
    unfold runProgram
    rw [read]
    dsimp only
    rw [command]
    exact tellsVerdict settings files

deriving instance DecidableEq for Settings

theorem fits_ferry : Settings.Fits
    { command := some "export", input := some "in.json", output := some "out" }
    Job.ferryDesk.files := by
  have alone : ∀ {loading}, Snapshot.load Job.ferryDesk.files "in.json" {} = .ok () loading →
      ∀ line ∈ loading.registry.lines.members, line = Load.ferryLine := by
    intro loading loaded line member
    rw [← Job.ferry_only loaded, Load.ferry_lines] at member
    exact List.mem_singleton.mp member
  constructor
  case lines =>
    rintro _ loading ⟨⟩ loaded line member
    rw [alone loaded line member]
    exact ⟨⟨"L", rfl, by decide⟩, ⟨_, rfl⟩, ⟨_, rfl⟩⟩
  case folder =>
    rintro _ ⟨⟩
    exact Text.isWhole_string "out"
  case accepts =>
    rintro _ _ loading ⟨⟩ ⟨⟩ loaded line member
    rw [alone loaded line member]
    exact Job.ferry_accepts.1
  case report =>
    rintro _ ⟨⟩
    exact Job.ferry_accepts.2

/-- The ferry has a journey to export, and nothing is wrong with it. -/
theorem exitStatus_ferry :
    (runProgram ["export", "--input", "in.json", "--output", "out"] Job.ferryDesk.files).code = 0 ∧
    (runProgram ["validate", "--input", "in.json"] Job.ferryDesk.files).code = 0 ∧
    (runProgram ["validate", "--input", "in.json"] Job.ferryDesk.files).output.IsWhole := by
  have exports : readSettings ["export", "--input", "in.json", "--output", "out"] =
      .ok { command := some "export", input := some "in.json", output := some "out" } :=
    toOption_eq_some_iff.mp (by decide +kernel)
  have validates : readSettings ["validate", "--input", "in.json"] =
      .ok { command := some "validate", input := some "in.json" } :=
    toOption_eq_some_iff.mp (by decide +kernel)
  constructor
  · have valid : (Load.ferryLoading.registry.collect Load.ferryLine {}).valid = true := by
      decide +kernel
    obtain ⟨_, report, after, done, all⟩ := Job.ferry_prepares.runs
      (List.forall_mem_singleton.mpr Job.ferry_accepts.1) Job.ferry_accepts.2
    have listed : Job.entry Load.ferryLoading.registry {} Load.ferryLine ∈ report.lines := by
      rw [Job.exportAll_lines all]
      exact List.mem_singleton_self _
    apply ((exitStatus exports Job.ferryDesk.files).1 rfl fits_ferry).status.mpr
    exact ⟨report, after, ⟨"in.json", "out", rfl, rfl, by decide, done⟩, _, listed,
      (Job.tells_entry _ _ _).ok_iff.mpr valid⟩
  · have tells := (exitStatus validates Job.ferryDesk.files).2 rfl
    have reads : Settings.ReadsWhole { command := some "validate", input := some "in.json" }
        Job.ferryDesk.files := by
      rintro _ document ⟨⟩ read
      obtain rfl := Except.ok.inj ((Job.document_of_text rfl Job.ferry_parses).symm.trans read)
      decide
    obtain ⟨verdict, judged, accepted⟩ := Job.ferry_prepares.judged
    have ran : ∃ after, Job.validate "in.json" Job.ferryDesk = .ok verdict after :=
      ⟨_, by rw [Job.validate_run Job.ferry_prepares.loaded, judged]⟩
    obtain ⟨after, ran⟩ := ran
    exact ⟨tells.status.mpr ⟨"in.json", verdict, after, rfl, ran, accepted⟩, tells.printed reads⟩

end CommandLine
end LineClosure
