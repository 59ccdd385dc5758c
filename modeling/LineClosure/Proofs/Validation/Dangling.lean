import LineClosure.Proofs.Export.AllOrNothing
import LineClosure.Proofs.Snapshot.Links
import LineClosure.Proofs.Snapshot.Reflected

/-! References to stop areas that are not there. Each of them is noted when the snapshot is loaded.
The validation finds all of them a defect but for one kind: that an access point is at an area that
is not there is told in the log, and nothing else comes of it. -/

namespace LineClosure

open Keyed

inductive AreaField where
  | parent | stopPoint | constrained | connectionStart | connectionEnd | accessLink | accessPoint
deriving DecidableEq

def Row.column (document : Row) (table name : String) : List Reference :=
  (document.listed table).map fun row => Row.optional row name

namespace AreaField

def references (document : Row) : AreaField → List Reference
  | parent => document.column "stop_areas" "parent"
  | stopPoint => document.column "stop_points" "stop_area"
  | constrained =>
    (document.listed "stop_areas").flatMap fun row => Row.listed row "routing_constraint_areas"
  | connectionStart => document.column "connection_links" "start"
  | connectionEnd => document.column "connection_links" "end"
  | accessLink => document.column "access_links" "stop_area"
  | accessPoint => document.column "access_points" "stop_area"

/-- A load has noted that a reference leads nowhere: it has rejected a containment, or told of
the link or the access point. -/
def Noted (loading : Loading) (reference : Reference) : AreaField → Prop
  | parent | stopPoint => ∃ rejection ∈ loading.rejected, rejection.holder = reference
  | constrained => ∃ rejection ∈ loading.rejected, rejection.item = reference
  | connectionStart | connectionEnd =>
    ∃ link ∈ loading.registry.connectionLinks.members,
      .linkToUnknownArea .connectionLink link.id reference ∈ loading.events
  | accessLink =>
    ∃ link ∈ loading.registry.accessLinks.members,
      .linkToUnknownArea .accessLink link.id reference ∈ loading.events
  | accessPoint =>
    ∃ point ∈ loading.registry.accessPoints.members,
      .linkToUnknownArea .accessPoint point.id reference ∈ loading.events

end AreaField

/-- The defect is that a reference leads nowhere, or that a containment with it was refused. -/
inductive Defect.Blames (reference : Reference) : Defect → Prop where
  | containment {rejection : Rejection}
    (about : rejection.holder = reference ∨ rejection.item = reference) :
    Blames reference (.rejectedContainment rejection.message)
  | connection (linkId : Id) : Blames reference (.unknownConnectionEnd linkId reference)
  | accessLink (linkId : Id) : Blames reference (.unknownLinkedArea linkId reference)

theorem Roster.resolve?_of_missing {α : Type} [Keyed α] {table : Roster α} {id : Id}
    (missing : table.contains id = false) : table.resolve? (.scalar id) = none := by
  rw [← Option.isNone_iff_eq_none, ← Option.not_isSome, Roster.isSome_resolve?_scalar, missing]
  rfl

namespace Registry

variable {r : Registry} {reference : Reference}

theorem rejection?_of_dangling {d : Declaration}
    (dangling : r.stopAreas.resolve? d.holder = none ∨
      d.relation = .constrainedAreas ∧ r.stopAreas.resolve? d.item = none) :
    ∃ problem, r.rejection? d = some ⟨d.holder, d.item, problem⟩ := by
  unfold rejection?
  cases lands : r.landing d with
  | error problem => exact ⟨problem, rfl⟩
  | ok c =>
    have missing : ∀ {a : StopArea}, r.stopAreas.resolve? d.holder = some a →
        d.relation = .constrainedAreas ∧ r.stopAreas.resolve? d.item = none := by
      intro a found
      refine dangling.resolve_left fun none => ?_
      rw [none] at found
      cases found
    cases landing_eq_ok_iff.mp lands with
    | nested hasParent => cases (missing hasParent).1
    | sited hasArea => cases (missing hasArea).1
    | areaListed hasArea _ hasListed =>
      obtain ⟨_, none⟩ := missing hasArea
      rw [none] at hasListed
      cases hasListed
    | lineListed hasArea => cases (missing hasArea).1

theorem defect_of_dangling {id : Id} (there : r.stopAreas.contains id = false)
    (defect : Defect) : .defect defect ∈ checkReference r.stopAreas (.scalar id) defect := by
  unfold checkReference Value.id?
  dsimp only
  rw [there]
  exact List.mem_cons_self

theorem validate_of_defect {rejected : List Text} {defect : Defect}
    (found : .defect defect ∈ r.findings rejected) :
    (∃ verdict, r.validate rejected = some verdict ∧ verdict.isValid = false ∧
      defect ∈ verdict.defects) ∨
    r.validate rejected = none ∧ ∃ value, .unusable value ∈ r.findings rejected := by
  unfold validate
  dsimp only
  split
  · next unusable =>
    obtain ⟨finding, there, is⟩ := List.any_eq_true.mp unusable
    cases finding with
    | unusable value => exact Or.inr ⟨rfl, value, there⟩
    | defect d => cases is
    | doubt d => cases is
  · have listed : defect ∈ (r.findings rejected).filterMap Finding.defect? :=
      List.mem_filterMap.mpr ⟨_, found, rfl⟩
    refine Or.inl ⟨_, rfl, ?_, listed⟩
    exact List.isEmpty_eq_false_iff_exists_mem.mpr ⟨defect, listed⟩

end Registry

namespace Load

variable {document : Row} {loading : Loading} {field : AreaField} {reference : Reference}

theorem rejected_of_dangling (reflects : loading.Reflects document) {d : Declaration}
    (given : d ∈ document.declarations)
    (dangling : loading.registry.stopAreas.resolve? d.holder = none ∨
      d.relation = .constrainedAreas ∧ loading.registry.stopAreas.resolve? d.item = none) :
    ∃ rejection ∈ loading.rejected, rejection.holder = d.holder ∧ rejection.item = d.item := by
  obtain ⟨problem, refused⟩ := Registry.rejection?_of_dangling dangling
  refine ⟨⟨d.holder, d.item, problem⟩, ?_, rfl, rfl⟩
  rw [reflects.rejected]
  exact List.mem_filterMap.mpr ⟨d, given, refused⟩

theorem told_of_dangling {kind : Kind} {id : Id} (answers : loading.Answers kind id reference)
    (dangling : loading.registry.stopAreas.resolve? reference = none) :
    .linkToUnknownArea kind id reference ∈ loading.events ∧
      ∀ defect, .defect defect ∈ checkReference loading.registry.stopAreas reference defect := by
  obtain ⟨areaId, rfl, answer⟩ := answers
  have missing : loading.registry.stopAreas.contains areaId = false := by
    rw [← Roster.isSome_resolve?_scalar, dangling]
    rfl
  refine ⟨answer.resolve_left fun there => ?_, Registry.defect_of_dangling missing⟩
  rw [missing] at there
  cases there

theorem blames_of_rejected {rejection : Rejection} (there : rejection ∈ loading.rejected)
    (about : rejection.holder = reference ∨ rejection.item = reference) :
    ∃ defect : Defect, defect.Blames reference ∧
      .defect defect ∈ loading.registry.findings (loading.rejected.map Rejection.message) :=
  ⟨_, .containment about, Registry.mem_findings_of_rejected (List.mem_map_of_mem there)⟩

theorem connection_of_dangling {link : ConnectionLink}
    (registered : link ∈ loading.registry.connectionLinks.members)
    (isEnd : reference ∈ [link.startAreaId, link.endAreaId])
    (answers : loading.Answers .connectionLink link.id reference)
    (dangling : loading.registry.stopAreas.resolve? reference = none) :
    (∃ link ∈ loading.registry.connectionLinks.members,
      .linkToUnknownArea .connectionLink link.id reference ∈ loading.events) ∧
    ∃ defect : Defect, defect.Blames reference ∧
      .defect defect ∈ loading.registry.findings (loading.rejected.map Rejection.message) := by
  obtain ⟨told, wrong⟩ := told_of_dangling answers dangling
  refine ⟨⟨link, registered, told⟩, _, .connection link.id, ?_⟩
  exact Registry.mem_findings_of_connectionLink registered
    (List.mem_append_left _ (List.mem_flatMap.mpr ⟨reference, isEnd, wrong _⟩))

/-- A reference to a stop area that is not there was noted, and is found a defect unless it is an
access point's. -/
theorem noted_of_dangling (reflects : loading.Reflects document) (links : loading.HasLinks document)
    (named : reference ∈ field.references document) (filled : reference.isTruthy = true)
    (dangling : loading.registry.stopAreas.resolve? reference = none) :
    field.Noted loading reference ∧ (field ≠ .accessPoint →
      ∃ defect : Defect, defect.Blames reference ∧
        .defect defect ∈ loading.registry.findings (loading.rejected.map Rejection.message)) := by
  -- The first three fields make declarations, and those are rejected. The others are of records
  -- that keep what they name, so it is found when they are looked at.
  cases field with
  | parent =>
    obtain ⟨row, given, rfl⟩ := List.mem_map.mp named
    have declared : ⟨.containedAreas, row.optional "parent", row.optional "id"⟩ ∈
        document.declarations :=
      List.mem_append_left _ (List.mem_flatMap.mpr ⟨row, given, mem_parents_iff.mpr ⟨filled, rfl⟩⟩)
    obtain ⟨rejection, there, holder, _⟩ :=
      rejected_of_dangling reflects declared (Or.inl dangling)
    exact ⟨⟨rejection, there, holder⟩, fun _ => blames_of_rejected there (Or.inl holder)⟩
  | stopPoint =>
    obtain ⟨row, given, rfl⟩ := List.mem_map.mp named
    have declared : ⟨.containedStopPoints, row.optional "stop_area", row.optional "id"⟩ ∈
        document.declarations :=
      List.mem_append_right _ (List.mem_append_left _
        (List.mem_flatMap.mpr ⟨row, given, mem_sites_iff.mpr ⟨filled, rfl⟩⟩))
    obtain ⟨rejection, there, holder, _⟩ :=
      rejected_of_dangling reflects declared (Or.inl dangling)
    exact ⟨⟨rejection, there, holder⟩, fun _ => blames_of_rejected there (Or.inl holder)⟩
  | constrained =>
    obtain ⟨row, given, listed⟩ := List.mem_flatMap.mp named
    have declared : ⟨.constrainedAreas, row.optional "id", reference⟩ ∈ document.declarations :=
      List.mem_append_right _ (List.mem_append_right _ (List.mem_flatMap.mpr
        ⟨row, given, List.mem_append_left _ (List.mem_map.mpr ⟨reference, listed, rfl⟩)⟩))
    obtain ⟨rejection, there, _, item⟩ :=
      rejected_of_dangling reflects declared (Or.inr ⟨rfl, dangling⟩)
    exact ⟨⟨rejection, there, item⟩, fun _ => blames_of_rejected there (Or.inr item)⟩
  | connectionStart =>
    obtain ⟨row, given, rfl⟩ := List.mem_map.mp named
    obtain ⟨link, registered, start, _, answers⟩ := links.connections row given
    rw [start] at dangling ⊢
    have isEnd : link.startAreaId ∈ [link.startAreaId, link.endAreaId] := List.mem_cons_self
    obtain ⟨noted, found⟩ := connection_of_dangling registered isEnd (answers _ isEnd) dangling
    exact ⟨noted, fun _ => found⟩
  | connectionEnd =>
    obtain ⟨row, given, rfl⟩ := List.mem_map.mp named
    obtain ⟨link, registered, _, finish, answers⟩ := links.connections row given
    rw [finish] at dangling ⊢
    have isEnd : link.endAreaId ∈ [link.startAreaId, link.endAreaId] :=
      List.mem_cons_of_mem _ List.mem_cons_self
    obtain ⟨noted, found⟩ := connection_of_dangling registered isEnd (answers _ isEnd) dangling
    exact ⟨noted, fun _ => found⟩
  | accessLink =>
    obtain ⟨row, given, rfl⟩ := List.mem_map.mp named
    obtain ⟨link, registered, area, answers⟩ := links.accessLinks row given
    rw [area] at dangling ⊢
    obtain ⟨told, wrong⟩ := told_of_dangling answers dangling
    refine ⟨⟨link, registered, told⟩, fun _ => ⟨_, .accessLink link.id, ?_⟩⟩
    exact Registry.mem_findings_of_accessLink registered (List.mem_append_right _ (wrong _))
  | accessPoint =>
    obtain ⟨row, given, rfl⟩ := List.mem_map.mp named
    obtain ⟨point, registered, answers⟩ := links.accessPoints row given
    obtain ⟨told, _⟩ := told_of_dangling (answers filled) dangling
    exact ⟨⟨point, registered, told⟩, fun checked => absurd rfl checked⟩

end Load

namespace Job

/-- Whatever names a stop area that is not there is noted when a snapshot is loaded, and a
validation reports a defect for it unless it is an access point that names the area. The validation
gets there if no value keeps it from judging the network. -/
theorem validate_dangling {input : Text} {desk : Desk} {document : Row} {loading : Loading}
    (read : Snapshot.document desk.files input = .ok document)
    (loaded : Load.sections document {} = .ok () loading)
    (areasText : Load.Textual (document.listed "stop_areas"))
    (stopsText : Load.Textual (document.listed "stop_points"))
    {field : AreaField} {reference : Reference} (named : reference ∈ field.references document)
    (filled : reference.isTruthy = true)
    (dangling : loading.registry.stopAreas.resolve? reference = none) :
    field.Noted loading reference ∧
    (field ≠ .accessPoint →
      (∃ verdict after, validate input desk = .ok verdict after ∧ verdict.isValid = false ∧
        ∃ defect ∈ verdict.defects, defect.Blames reference) ∨
      ∃ value after, validate input desk = .error .unusableValue after ∧
        .unusable value ∈
          loading.registry.findings (loading.rejected.map Rejection.message)) := by
  obtain ⟨reflects, _⟩ := Load.containments_of_sections areasText stopsText loaded
  obtain ⟨_, links⟩ := Load.moves_sections document {} () loading loaded
  obtain ⟨noted, found⟩ := Load.noted_of_dangling reflects links named filled dangling
  refine ⟨noted, fun checked => ?_⟩
  obtain ⟨defect, blames, there⟩ := found checked
  rw [validate_run (load_of_document read loaded)]
  rcases Registry.validate_of_defect there with ⟨verdict, judged, invalid, listed⟩ |
    ⟨stuck, value, unusable⟩
  · rw [judged]
    exact Or.inl ⟨verdict, _, rfl, invalid, defect, listed, blames⟩
  · rw [stuck]
    exact Or.inr ⟨value, _, rfl, unusable⟩

/-! ## An entrance to an area that is not there -/

def entrance (parent : String) : Row :=
  .object [
    ("stop_areas", .list [.object [("id", .text "A"), ("area_type", .text "Quay"),
      ("parent", .text parent)]]),
    ("access_points", .list [.object [("id", .text "E"), ("stop_area", .text "Z")]]),
    ("lines", .list [.object [("id", .text "L")]])]

def entrancePieces (parent : String) : List String :=
  ["\x7b\"stop_areas\":[\x7b\"id\":\"A\",\"area_type\":\"Quay\",\"parent\":\"", parent,
    "\"\x7d],\"access_points\":[\x7b\"id\":\"E\",\"stop_area\":\"Z\"\x7d],",
    "\"lines\":[\x7b\"id\":\"L\"\x7d]\x7d"]

def entranceDesk (parent : String) : Desk := deskOf (entrancePieces parent)

def entranceLoading (parent : String) : Loading := (Load.ended (entrance parent)).1

theorem entrance_computed :
    isLoadable (entrancePieces "Y") (entrance "Y") = true ∧
      ((entranceLoading "Y").registry.findings
        ((entranceLoading "Y").rejected.map Rejection.message)).any Finding.isUnusable = false ∧
      (entranceLoading "Y").registry.stopAreas.contains (.text "Y") = false ∧
      isLoadable (entrancePieces "") (entrance "") = true ∧
      ((entranceLoading "").registry.validate
        ((entranceLoading "").rejected.map Rejection.message)).any Verdict.isValid = true ∧
      (entranceLoading "").registry.stopAreas.contains (.text "Z") = false := by
  decide +kernel

theorem entrance_loads {parent : String}
    (loadable : isLoadable (entrancePieces parent) (entrance parent) = true) :
    Load.sections (entrance parent) {} = .ok () (entranceLoading parent) :=
  sections_of_isLoadable loadable

theorem validate_dangling_parent :
    ∃ verdict after, validate "in.json" (entranceDesk "Y") = .ok verdict after ∧
      verdict.isValid = false ∧
      ∃ defect ∈ verdict.defects, defect.Blames (.text "Y") := by
  obtain ⟨loadable, usable, missing, _⟩ := entrance_computed
  have areasText : Load.Textual ((entrance "Y").listed "stop_areas") := by
    intro row given
    rw [List.mem_singleton.mp given]
    exact ⟨"A", rfl⟩
  obtain ⟨_, checked⟩ := @validate_dangling "in.json" (entranceDesk "Y") (entrance "Y")
    (entranceLoading "Y") (read_of_isLoadable rfl loadable) (entrance_loads loadable) areasText
    (fun _ given => absurd given List.not_mem_nil) .parent (.text "Y") List.mem_cons_self rfl
    (Roster.resolve?_of_missing missing)
  refine (checked (by decide)).resolve_right ?_
  rintro ⟨value, _, _, unusable⟩
  exact absurd rfl (List.any_eq_false.mp usable _ unusable)

/-- An access point names an area that is not there, and the network is found valid. -/
theorem validate_overlooks :
    Snapshot.document (entranceDesk "").files "in.json" = .ok (entrance "") ∧
      Load.sections (entrance "") {} = .ok () (entranceLoading "") ∧
      .text "Z" ∈ AreaField.references (entrance "") .accessPoint ∧
      (entranceLoading "").registry.stopAreas.resolve? (.text "Z") = none ∧
      ∃ verdict after, validate "in.json" (entranceDesk "") = .ok verdict after ∧
        verdict.isValid = true := by
  obtain ⟨_, _, _, loadable, accepted, missing⟩ := entrance_computed
  have read := read_of_isLoadable rfl loadable
  have loads := entrance_loads loadable
  refine ⟨read, loads, List.mem_cons_self, Roster.resolve?_of_missing missing, ?_⟩
  obtain ⟨verdict, judged, valid⟩ := (Option.any_eq_true _ _).mp accepted
  have run := validate_run (load_of_document read loads)
  rw [judged] at run
  exact ⟨verdict, _, run, valid⟩

end Job
end LineClosure
