import LineClosure.Proofs.Export.Accounting
import LineClosure.Proofs.Export.Layouts

/-! Which files an export leaves. Every line with data writes the file of its identifier, and the
report comes last, under a name that a line can have as well. A file is the one that was written if
nothing else has its name; a line that is called like the report loses its file to the report. -/

namespace LineClosure

open FileTree Keyed

namespace Job

/-! ## All files -/

section
variable {r : Registry} {window : Window} {folder : Text} {lines : List Line}

/-- The files after an export that got to its end: each line with data that is alone has its file,
unless the file is that of the report, and the report has its own. -/
theorem exportAll_files {request : ExportRequest} {report : ExportReport} {desk after : Desk}
    (stems : ∀ line ∈ lines, line.id.IsFileStem)
    (done : exportAll r request folder lines desk = .ok report after) :
    (request.writeReport = true →
      after.files.HasFile folder reportName (Document.render report.document).toUTF8) ∧
    ∀ line ∈ lines, (r.collect line request.window).valid = true →
      Alone r request.window lines line →
      if request.writeReport = true ∧ fileName line.id = reportName then
        after.files.HasFile folder (closureName line.id) (Document.render report.document).toUTF8
      else
        after.files.HasFile folder (closureName line.id) (r.closureFile line request.window) := by
  obtain ⟨_, _, between, saves, reports⟩ := exportAll_spec done
  refine ⟨exportAll_report done, fun line given valid alone => ?_⟩
  have part := isPart_closureName (stems line given)
  have has := saves.hasFile_alone stems given valid alone
  split
  · next overwritten =>
    rw [SavesReport, if_pos overwritten.1, ← exportAll_document done] at reports
    exact reports.replaces isPart_report part overwritten.2 has
  · next kept => exact reports.keeps part (fun writes same => kept ⟨writes, same⟩) has

end

theorem closureFile_ne (r : Registry) (line : Line) (window : Window) (report : ExportReport) :
    r.closureFile line window ≠ (Document.render report.document).toUTF8 := by
  intro same
  exact Closure.render_ne _ line report (String.toByteArray_inj.mp same)

section
variable {input output : Text} {request : ExportRequest} {desk after : Desk}
  {report : ExportReport}

/-- Of an export that gets to its end, over a network whose lines have texts without slashes for
identifiers: the report, if it is to be written, is in its file. A line that is reported to have data
has its closure in the file of its identifier just if that is not the file of the report; then it
is the report that is there. Two such lines may share a file only if an identifier is torn. -/
theorem exportLines_files
    (stems : ∀ loading, Snapshot.load desk.files input {} = .ok () loading →
      ∀ line ∈ loading.registry.lines.members, line.id.IsFileStem)
    (done : exportLines input output request desk = .ok report after) :
    ∃ loading lines, Prepares desk.files input request loading lines ∧
      report.lines = lines.map (entry loading.registry request.window) ∧
      (request.writeReport = true →
        after.files.HasFile output reportName (Document.render report.document).toUTF8) ∧
      (∀ line ∈ lines, (entry loading.registry request.window line).state = .ok →
        Alone loading.registry request.window lines line →
        (after.files.HasFile output (closureName line.id)
            (loading.registry.closureFile line request.window) ↔
          ¬(request.writeReport = true ∧ fileName line.id = reportName)) ∧
        (request.writeReport = true → fileName line.id = reportName →
          after.files.HasFile output (closureName line.id)
            (Document.render report.document).toUTF8)) ∧
      (∀ line ∈ lines,
        ∃ document, loading.registry.closureFile line request.window =
            (Document.render document).toUTF8 ∧
          (loading.registry.collect line request.window).closure.Tells line document) ∧
      ∀ line ∈ lines, (∀ next ∈ lines, ∃ s : String, next.id = .text (.whole s)) →
        Alone loading.registry request.window lines line := by
  obtain ⟨loading, lines, events, prepares, ran⟩ := prepares_of_done done
  have registered := ExportRequest.mem_of_requested prepares.requested
  have stems : ∀ line ∈ lines, line.id.IsFileStem := fun line given =>
    stems loading prepares.loaded line (registered line given)
  obtain ⟨reported, closures⟩ := exportAll_files stems ran
  refine ⟨loading, lines, prepares, exportAll_lines ran, reported,
    fun line given ok alone => ?_, fun line _ => ⟨_, rfl, Closure.tells_document _ line⟩,
    fun line given strings => alone_of_strings registered strings given⟩
  have valid := (tells_entry _ _ line).ok_iff.mp ok
  have file := closures line given valid alone
  split at file
  · next overwritten =>
    refine ⟨iff_of_false (fun has => ?_) (not_not_intro overwritten), fun _ _ => file⟩
    exact closureFile_ne _ _ _ _ (has.content_unique file)
  · next kept =>
    exact ⟨iff_of_true file kept, fun writes same => absurd ⟨writes, same⟩ kept⟩

end

theorem exportLines_files_ferry :
    ∃ report after, exportLines "in.json" "out" {} ferryDesk = .ok report after ∧
      after.files.HasFile "out" (closureName Load.ferryLine.id)
        (Load.ferryLoading.registry.closureFile Load.ferryLine {}) ∧
      after.files.HasFile "out" reportName (Document.render report.document).toUTF8 := by
  obtain ⟨report, after, run⟩ := ferry_exports
  obtain ⟨loading, lines, prepares, _, reports, closures, _, alone⟩ := exportLines_files
    (by
      intro loading loaded line member
      rw [← ferry_only loaded, Load.ferry_lines] at member
      rw [List.mem_singleton.mp member]
      exact ⟨"L", rfl, by decide⟩)
    run
  obtain rfl := ferry_only prepares.loaded
  have requested := ferry_prepares.requested.symm.trans prepares.requested
  rw [← Except.ok.inj requested] at closures alone
  have valid : (Load.ferryLoading.registry.collect Load.ferryLine {}).valid = true := by
    decide +kernel
  have given := List.mem_singleton_self Load.ferryLine
  have strings : ∀ next ∈ [Load.ferryLine], ∃ s : String, next.id = .text (.whole s) :=
    List.forall_mem_singleton.mpr ⟨"L", rfl⟩
  have apart : fileName Load.ferryLine.id ≠ reportName := by decide
  obtain ⟨kept, _⟩ := closures Load.ferryLine given ((tells_entry _ _ _).ok_iff.mpr valid)
    (alone Load.ferryLine given strings)
  exact ⟨report, after, run, kept.mpr fun both => apart both.2, reports rfl⟩

/-! ## A line that is called like the report -/

def bulletin : Row :=
  .object [
    ("stop_points", .list [.object [("id", .text "S")]]),
    ("timetables", .list [.object [("id", .text "T"),
      ("calendar_days", .list [.object [("date", .text "2024-01-05")]])]]),
    ("lines", .list [.object [("id", .text "report"), ("routes", .list [
      .object [("id", .text "R"), ("stop_points", .list [.text "S"]),
        ("journey_patterns", .list [.object [("id", .text "P"),
          ("vehicle_journeys", .list [.object [("id", .text "V"),
            ("timetables", .list [.text "T"])]])]])]])]])]

def bulletinPieces : List String :=
  ["\x7b\"stop_points\":[\x7b\"id\":\"S\"\x7d],",
    "\"timetables\":[\x7b\"id\":\"T\",\"calendar_days\":[\x7b\"date\":\"2024-01-05\"\x7d]\x7d],",
    "\"lines\":[\x7b\"id\":\"report\",\"routes\":[\x7b\"id\":\"R\",\"stop_points\":[\"S\"],",
    "\"journey_patterns\":[\x7b\"id\":\"P\",\"vehicle_journeys\":",
    "[\x7b\"id\":\"V\",\"timetables\":[\"T\"]\x7d]\x7d]\x7d]\x7d]\x7d"]

def bulletinDesk : Desk := deskOf bulletinPieces

def bulletinLoading : Loading := (Load.ended bulletin).1

def bulletinLine : Line := { id := .text (.whole "report"), routeIds := [.text "R"] }

theorem bulletin_computed :
    isLoadable bulletinPieces bulletin = true ∧
      (bulletinLoading.registry.validate
        (bulletinLoading.rejected.map Rejection.message)).any Verdict.isValid = true ∧
      bulletinLoading.registry.lines.members = [bulletinLine] ∧
      (bulletinLoading.registry.collect bulletinLine {}).valid = true := by
  decide +kernel

theorem bulletin_valid : (bulletinLoading.registry.collect bulletinLine {}).valid = true :=
  bulletin_computed.2.2.2

theorem bulletin_loads : Load.sections bulletin {} = .ok () bulletinLoading :=
  sections_of_isLoadable bulletin_computed.1

theorem bulletin_prepares :
    Prepares bulletinDesk.files "in.json" {} bulletinLoading [bulletinLine] where
  window := rfl
  loaded := load_of_document (read_of_isLoadable rfl bulletin_computed.1) bulletin_loads
  judged := (Option.any_eq_true _ _).mp bulletin_computed.2.1
  requested := by rw [ExportRequest.lines_of_null rfl, bulletin_computed.2.2.1]

theorem bulletin_name : closureName bulletinLine.id = reportName := by decide

theorem bulletin_accepts : bulletinDesk.files.Accepts "out" reportName := ⟨_, _, rfl, rfl, rfl⟩

/-- The export gets to its end and reports that the line has data, but the file of the line holds
the report. -/
theorem exportLines_overwrites :
    ∃ report after, exportLines "in.json" "out" {} bulletinDesk = .ok report after ∧
      report.lines = [entry bulletinLoading.registry {} bulletinLine] ∧
      (entry bulletinLoading.registry {} bulletinLine).state = .ok ∧
      ¬after.files.HasFile "out" (closureName bulletinLine.id)
        (bulletinLoading.registry.closureFile bulletinLine {}) := by
  have stems : ∀ line ∈ [bulletinLine], line.id.IsFileStem :=
    List.forall_mem_singleton.mpr ⟨"report", rfl, by decide⟩
  have alone : Alone bulletinLoading.registry {} [bulletinLine] bulletinLine :=
    fun other given _ _ => List.mem_singleton.mp given
  obtain ⟨_, report, after, runs, done⟩ := bulletin_prepares.runs
    (List.forall_mem_singleton.mpr (bulletin_name ▸ bulletin_accepts)) bulletin_accepts
  obtain ⟨_, closures⟩ := exportAll_files stems done
  have file := closures bulletinLine (List.mem_singleton_self _) bulletin_valid alone
  have shared : fileName bulletinLine.id = reportName := congrArg FileName.normal bulletin_name
  rw [if_pos ⟨rfl, shared⟩] at file
  refine ⟨report, after, runs, exportAll_lines done,
    (tells_entry _ _ _).ok_iff.mpr bulletin_valid, fun has => ?_⟩
  exact closureFile_ne _ _ _ _ (has.content_unique file)

end Job
end LineClosure
