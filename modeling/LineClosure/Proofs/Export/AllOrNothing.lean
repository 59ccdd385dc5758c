import LineClosure.Proofs.Export.LineFiles
import LineClosure.Proofs.Validation.Foreseen

/-! An export writes everything or nothing. Whatever can go wrong goes wrong before the first line
is collected: in a valid network every reference that a walk follows can be resolved, and the files
of different lines do not get into each other's way. -/

namespace LineClosure

open FileTree Keyed

namespace Job

/-! ## The whole export -/

section
variable {input output : Text} {request : ExportRequest} {desk : Desk} {loading : Loading}
  {lines : List Line}

theorem sections_of_load {files : FileTree}
    (loaded : Snapshot.load files input {} = .ok () loading) :
    ∃ document, Snapshot.document files input = .ok document ∧
      Load.sections document {} = .ok () loading := by
  obtain ⟨document, found, done⟩ := Load.check_bind_eq_ok_iff.mp loaded
  exact ⟨document, found, done⟩

theorem Prepares.resolves (prepares : Prepares desk.files input request loading lines) :
    loading.registry.Resolves := by
  obtain ⟨document, _, done⟩ := sections_of_load prepares.loaded
  obtain ⟨verdict, judged, valid⟩ := prepares.judged
  exact Registry.resolves_of_valid (Load.closed_of_sections done) judged valid

theorem Prepares.unique {other : Loading} {others : List Line}
    (prepares : Prepares desk.files input request loading lines)
    (also : Prepares desk.files input request other others) : loading = other ∧ lines = others := by
  obtain rfl : loading = other :=
    (EStateM.Result.ok.inj (prepares.loaded.symm.trans also.loaded)).2
  exact ⟨rfl, Except.ok.inj (prepares.requested.symm.trans also.requested)⟩

/-- If its files are accepted, an export that is prepared gets to its end. -/
theorem Prepares.runs (prepares : Prepares desk.files input request loading lines)
    (accepts : ∀ line ∈ lines, desk.files.Accepts output (closureName line.id))
    (acceptsReport : desk.files.Accepts output reportName) :
    ∃ events report after, exportLines input output request desk = .ok report after ∧
      exportAll loading.registry request output lines { desk with events } = .ok report after := by
  have registered := ExportRequest.mem_of_requested prepares.requested
  obtain ⟨events, runs⟩ := exportLines_of_prepares output prepares
  obtain ⟨report, after, done⟩ := exportAll_runs { desk with events }
    (fun line given =>
      Registry.obstructed?_of_resolves request.window prepares.resolves (registered line given))
    (fun line given _ => accepts line given) fun _ => acceptsReport
  exact ⟨events, report, after, runs.trans done, done⟩

/-- If the file system refuses nothing, an export fails and has touched no file, or it gets to its
end and each line with data has its file. -/
theorem exportLines_allOrNothing
    (stems : ∀ loading, Snapshot.load desk.files input {} = .ok () loading →
      ∀ line ∈ loading.registry.lines.members, line.id.IsStem)
    (accepts : ∀ loading, Snapshot.load desk.files input {} = .ok () loading →
      ∀ line ∈ loading.registry.lines.members, desk.files.Accepts output (closureName line.id))
    (acceptsReport : desk.files.Accepts output reportName) :
    (∀ failure after, exportLines input output request desk = .error failure after →
      after.files = desk.files ∧
        ∀ loading lines, ¬Prepares desk.files input request loading lines) ∧
    ∀ report after, exportLines input output request desk = .ok report after →
      ∃ loading lines, Prepares desk.files input request loading lines ∧
        ∃ between,
          (∀ line ∈ lines, (loading.registry.collect line request.window).valid = true →
            between.HasFile output (closureName line.id)
              (loading.registry.closureFile line request.window)) ∧
          SavesReport request output (reportOf loading.registry request.window lines) between
            after.files ∧
          ∀ line ∈ lines, (loading.registry.collect line request.window).valid = true →
            (request.writeReport = true → closureName line.id ≠ reportName) →
            after.files.HasFile output (closureName line.id)
              (loading.registry.closureFile line request.window) := by
  by_cases prepared : ∃ loading lines, Prepares desk.files input request loading lines
  -- all that can fail has gone right, so it gets to its end
  · obtain ⟨loading, lines, prepares⟩ := prepared
    have registered := ExportRequest.mem_of_requested prepares.requested
    have stems := fun line given => stems loading prepares.loaded line (registered line given)
    have accepts := fun line given => accepts loading prepares.loaded line (registered line given)
    obtain ⟨events, report, after, runs, done⟩ := prepares.runs accepts acceptsReport
    rw [runs]
    constructor
    · intro _ _ failed
      cases failed
    · intro _ _ same
      cases same
      obtain ⟨_, _, between, saves, reports⟩ := exportAll_spec done
      have fileStems : ∀ line ∈ lines, line.id.IsFileStem := fun line given =>
        (stems line given).isFileStem
      have strings : ∀ line ∈ lines, ∃ s : String, line.id = .text (.whole s) := fun line given =>
        (stems line given).imp fun _ both => both.1
      have saved : ∀ line ∈ lines, (loading.registry.collect line request.window).valid = true →
          between.HasFile output (closureName line.id)
            (loading.registry.closureFile line request.window) := fun line given valid =>
        saves.hasFile_alone fileStems given valid (alone_of_strings registered strings given)
      refine ⟨loading, lines, prepares, between, saved, reports, fun line given valid apart => ?_⟩
      obtain ⟨s, named⟩ := strings line given
      have part := isPart_closureName (fileStems line given)
      refine reports.keeps part (fun writes same => apart writes ?_) (saved line given valid)
      rwa [named] at same ⊢
  · rcases exportLines_cases input output request desk with ⟨failure, events, failed⟩ | prepares
    · rw [failed]
      constructor
      · intro _ _ same
        cases same
        exact ⟨rfl, fun loading lines prepares => prepared ⟨loading, lines, prepares⟩⟩
      · intro _ _ same
        cases same
    · exact absurd prepares prepared

end

/-! ## A snapshot of one ferry in a file -/

theorem decode_toUTF8 (s : String) : Utf8.decode s.toUTF8 = .ok s := by
  have valid : s.toUTF8.IsValidUTF8 := s.isValidUTF8
  unfold Utf8.decode String.fromUTF8?
  rw [dif_pos valid]
  rfl

theorem document_of_text {files : FileTree} {path : Text} {s : String}
    {fields : List (Text × Value)} (read : files.read path = .ok s.toUTF8)
    (parses : Document.parse (Document.unifyLineEnds s.toList) = .ok (.object fields)) :
    Snapshot.document files path = .ok (.object fields) := by
  unfold Snapshot.document
  rw [read]
  simp only [bind, Except.bind, pure, Except.pure, decode_toUTF8, Except.mapError, parses]

theorem load_of_document {files : FileTree} {path : Text} {document : Row} {loading : Loading}
    (read : Snapshot.document files path = .ok document)
    (loads : Load.sections document {} = .ok () loading) :
    Snapshot.load files path {} = .ok () loading :=
  (Load.check_bind read).trans loads

theorem parses_of_pieces {pieces : List String} {v : Value}
    (parses : (Document.parse (Document.unifyLineEnds (pieces.flatMap String.toList))).toOption =
      some v) :
    Document.parse (Document.unifyLineEnds (String.ofList (pieces.flatMap String.toList)).toList) =
      .ok v := by
  rw [String.toList_ofList]
  cases parsed : Document.parse (Document.unifyLineEnds (pieces.flatMap String.toList)) with
  | error message =>
    rw [parsed] at parses
    cases parses
  | ok other =>
    rw [parsed] at parses
    rw [Option.some.inj parses]

def deskOf (pieces : List String) : Desk :=
  { files :=
      { files := [(["in.json"], (String.ofList (pieces.flatMap String.toList)).toUTF8)] } }

/-- The text is that of the document, and the document loads. -/
def isLoadable (pieces : List String) (document : Row) : Bool :=
  (Document.parse (Document.unifyLineEnds (pieces.flatMap String.toList))).toOption =
    some document && (Load.ended document).2

theorem sections_of_isLoadable {pieces : List String} {document : Row}
    (loadable : isLoadable pieces document = true) :
    Load.sections document {} = .ok () (Load.ended document).1 :=
  Load.sections_of_ended ((Bool.and_eq_true _ _).mp loadable).2

theorem read_of_isLoadable {pieces : List String} {document : Row} {fields : List (Text × Value)}
    (object : document = .object fields) (loadable : isLoadable pieces document = true) :
    Snapshot.document (deskOf pieces).files "in.json" = .ok document := by
  subst object
  obtain ⟨parses, _⟩ := (Bool.and_eq_true _ _).mp loadable
  exact document_of_text rfl (parses_of_pieces (of_decide_eq_true parses))

def ferryPieces : List String :=
  ["\x7b\"stop_points\":[\x7b\"id\":\"S\"\x7d],",
    "\"timetables\":[\x7b\"id\":\"T\",\"calendar_days\":[\x7b\"date\":\"2024-01-05\"\x7d]\x7d],",
    "\"lines\":[\x7b\"id\":\"L\",\"routes\":[\x7b\"id\":\"R\",\"stop_points\":[\"S\"],",
    "\"journey_patterns\":[\x7b\"id\":\"P\",\"vehicle_journeys\":",
    "[\x7b\"id\":\"V\",\"timetables\":[\"T\"]\x7d]\x7d]\x7d,\x7b\"id\":\"Q\"\x7d]\x7d]\x7d"]

def ferryText : String := String.ofList (ferryPieces.flatMap String.toList)

def ferryDesk : Desk := { files := { files := [(["in.json"], ferryText.toUTF8)] } }

theorem ferry_parses :
    Document.parse (Document.unifyLineEnds ferryText.toList) = .ok Load.ferry :=
  parses_of_pieces (by decide +kernel)

theorem ferry_prepares :
    Prepares ferryDesk.files "in.json" {} Load.ferryLoading [Load.ferryLine] where
  window := rfl
  loaded := load_of_document (document_of_text rfl ferry_parses) Load.ferry_loads
  judged := Load.ferry_accepted
  requested := by
    rw [ExportRequest.lines_of_null rfl, Load.ferry_lines]

theorem ferry_only {loading : Loading}
    (loaded : Snapshot.load ferryDesk.files "in.json" {} = .ok () loading) :
    Load.ferryLoading = loading := by
  have same := ferry_prepares.loaded.symm.trans loaded
  exact (EStateM.Result.ok.inj same).2

theorem ferry_accepts : ferryDesk.files.Accepts "out" (closureName Load.ferryLine.id) ∧
    ferryDesk.files.Accepts "out" reportName :=
  ⟨⟨_, _, rfl, rfl, rfl⟩, ⟨_, _, rfl, rfl, rfl⟩⟩

theorem ferry_exports :
    ∃ report after, exportLines "in.json" "out" {} ferryDesk = .ok report after := by
  obtain ⟨_, report, after, done, _⟩ :=
    ferry_prepares.runs (List.forall_mem_singleton.mpr ferry_accepts.1) ferry_accepts.2
  exact ⟨report, after, done⟩

theorem exportLines_allOrNothing_ferry :
    ∃ report after, exportLines "in.json" "out" {} ferryDesk = .ok report after ∧
      after.files.HasFile "out" (closureName Load.ferryLine.id)
        (Load.ferryLoading.registry.closureFile Load.ferryLine {}) := by
  obtain ⟨_, ends⟩ := @exportLines_allOrNothing "in.json" "out" {} ferryDesk
    (by
      intro loading loaded line member
      rw [← ferry_only loaded, Load.ferry_lines] at member
      rw [List.mem_singleton.mp member]
      exact ⟨"L", rfl, by decide⟩)
    (by
      intro loading loaded line member
      rw [← ferry_only loaded, Load.ferry_lines] at member
      rw [List.mem_singleton.mp member]
      exact ferry_accepts.1)
    ferry_accepts.2
  obtain ⟨report, after, run⟩ := ferry_exports
  obtain ⟨loading, lines, prepares, between, _, _, kept⟩ := ends report after run
  obtain rfl := ferry_only prepares.loaded
  have requested := ferry_prepares.requested.symm.trans prepares.requested
  rw [← Except.ok.inj requested] at kept
  have valid : (Load.ferryLoading.registry.collect Load.ferryLine {}).valid = true := by
    decide +kernel
  have apart : closureName Load.ferryLine.id ≠ reportName := by decide
  have there := kept Load.ferryLine (List.mem_singleton_self _) valid fun _ => apart
  exact ⟨report, after, run, there⟩

end Job
end LineClosure
