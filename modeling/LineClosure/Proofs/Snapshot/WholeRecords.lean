import LineClosure.Proofs.Document.WholeTexts
import LineClosure.Proofs.Snapshot.Contents

/-! Snapshots of which every text can be printed. What is looked up in their rows can be printed
as well, and so can the identifiers and references of the records, and what is told of a
containment that was rejected. -/

namespace LineClosure

open Keyed

namespace Row

variable {row : Row}

theorem isWhole_optional (whole : row.IsWhole) {absent : Value} (fallback : absent.IsWhole)
    (name : String) : (row.optional name absent).IsWhole := by
  unfold optional
  cases found : row.field? name with
  | none => exact fallback
  | some v => exact whole.field? found

theorem isWhole_field (whole : row.IsWhole) (name : String) : (row.optional name).IsWhole :=
  isWhole_optional whole Value.isWhole_null name

theorem isWhole_required (whole : row.IsWhole) {name : String} {v : Value}
    (has : row.required name = .ok v) : v.IsWhole :=
  optional_of_required has ▸ isWhole_field whole name

theorem isWhole_items (whole : row.IsWhole) {name : String} {items : List Value}
    (has : row.items name = .ok items) : ∀ item ∈ items, item.IsWhole := by
  unfold Row.items at has
  split at has
  · next found elements =>
    cases has
    exact (isWhole_optional whole (by decide) name).elements? elements
  · cases has

theorem isWhole_listed (whole : row.IsWhole) (name : String) :
    ∀ item ∈ row.listed name, item.IsWhole := by
  cases has : row.items name with
  | ok items =>
    rw [listed_of_items has]
    exact isWhole_items whole has
  | error failure =>
    rw [listed, has]
    exact fun _ given => absurd given List.not_mem_nil

theorem isWhole_ownId (whole : row.IsWhole) : (Value.scalar row.ownId).IsWhole := by
  have field := isWhole_field whole "id"
  unfold ownId
  cases found : row.optional "id" with
  | list items | object fields => exact Value.isWhole_null
  | scalar id => rwa [found] at field

theorem isWhole_nested (whole : row.IsWhole) (name : String) :
    ∀ inner ∈ row.nested name, inner.2.IsWhole := by
  intro inner given
  obtain ⟨own, listed, rfl⟩ := List.mem_map.mp given
  exact isWhole_listed whole name own listed

theorem coordinates_of_fittedArea? {area : StopArea} (fitted : row.fittedArea? = some area) :
    row.optional "latitude" = area.latitude ∧ row.optional "longitude" = area.longitude := by
  unfold fittedArea? at fitted
  split at fitted
  · next bare _ _ read _ =>
    cases fitted
    obtain ⟨_, _, rest⟩ := except_bind_eq_ok_iff.mp read
    obtain ⟨_, _, rest⟩ := except_bind_eq_ok_iff.mp rest
    obtain ⟨_, _, rest⟩ := except_bind_eq_ok_iff.mp rest
    cases rest
    exact ⟨rfl, rfl⟩
  · cases fitted

theorem isWhole_owned {document : Row} (whole : document.IsWhole) (kind : Kind) :
    ∀ row ∈ document.owned kind, row.2.IsWhole := by
  have routes : ∀ row ∈ document.routeRows, row.2.IsWhole := by
    intro row given
    obtain ⟨line, listed, inside⟩ := List.mem_flatMap.mp given
    exact isWhole_nested (isWhole_listed whole "lines" line listed) "routes" row inside
  have patterns : ∀ row ∈ document.patternRows, row.2.IsWhole := by
    intro row given
    obtain ⟨route, listed, inside⟩ := List.mem_flatMap.mp given
    exact isWhole_nested (routes route listed) "journey_patterns" row inside
  have journeys : ∀ row ∈ document.journeyRows, row.2.IsWhole := by
    intro row given
    obtain ⟨pattern, listed, inside⟩ := List.mem_flatMap.mp given
    exact isWhole_nested (patterns pattern listed) "vehicle_journeys" row inside
  cases kind with
  | route => exact routes
  | journeyPattern => exact patterns
  | vehicleJourney => exact journeys
  | _ =>
    intro row given
    obtain ⟨own, listed, rfl⟩ := List.mem_map.mp given
    exact isWhole_listed whole _ own listed

end Row

/-- What a validation may tell of a record, apart from its identifier. -/
def Kind.details : (kind : Kind) → kind.Entry → List Value
  | line => fun a => a.networkId :: a.companyId :: a.groupIds
  | route => fun a => a.stopPointIds
  | vehicleJourney => fun a => a.companyId :: a.timetableIds
  | stopArea => fun a => [a.latitude, a.longitude]
  | connectionLink => fun a => [a.startAreaId, a.endAreaId, a.duration]
  | accessLink => fun a => [a.accessPointId, a.stopAreaId]
  | _ => fun _ => []

theorem Kind.isWhole_details (kind : Kind) {row : Id × Row} {a : kind.Entry}
    (whole : row.2.IsWhole) (read : kind.record? row = some a) :
    ∀ v ∈ kind.details a, v.IsWhole := by
  have plain : ∀ {α : Type} {x : Except Failure α} {b : α}, x.toOption = some b → x = .ok b :=
    toOption_eq_some_iff.mp
  have field := Row.isWhole_field whole
  cases kind with
  | line =>
    obtain ⟨bare, _, found, _, rfl⟩ := Row.bare_of_whole Line.withRoutes read
    obtain ⟨_, _, rest⟩ := except_bind_eq_ok_iff.mp found
    obtain ⟨groups, has, rest⟩ := except_bind_eq_ok_iff.mp rest
    obtain ⟨_, _, rest⟩ := except_bind_eq_ok_iff.mp rest
    cases rest
    simp only [Kind.details, List.forall_mem_cons]
    exact ⟨field "network", field "company", Row.isWhole_items whole has⟩
  | route =>
    obtain ⟨bare, ids, found, _, rfl⟩ := Row.bare_of_whole Route.withPatterns read
    have stops : row.2.listed "stop_points" = bare.stopPointIds := Row.stopPointIds_of_route found
    intro v (given : v ∈ bare.stopPointIds)
    exact Row.isWhole_listed whole "stop_points" v (stops ▸ given)
  | vehicleJourney =>
    obtain ⟨_, _, rest⟩ := except_bind_eq_ok_iff.mp (plain read)
    obtain ⟨timetables, has, rest⟩ := except_bind_eq_ok_iff.mp rest
    obtain ⟨_, _, rest⟩ := except_bind_eq_ok_iff.mp rest
    cases rest
    simp only [Kind.details, List.forall_mem_cons]
    exact ⟨field "company", Row.isWhole_items whole has⟩
  | stopArea =>
    obtain ⟨latitude, longitude⟩ := Row.coordinates_of_fittedArea? read
    exact List.forall_mem_cons.mpr
      ⟨latitude ▸ field "latitude", List.forall_mem_singleton.mpr (longitude ▸ field "longitude")⟩
  | connectionLink =>
    obtain ⟨start, finish⟩ := Row.connectionLink_spec (plain read)
    have duration : row.2.optional "duration" = a.duration := by
      obtain ⟨_, _, rest⟩ := except_bind_eq_ok_iff.mp (plain read)
      repeat obtain ⟨_, _, rest⟩ := except_bind_eq_ok_iff.mp rest
      cases rest
      rfl
    refine List.forall_mem_cons.mpr ⟨start ▸ field "start", ?_⟩
    exact List.forall_mem_cons.mpr
      ⟨finish ▸ field "end", List.forall_mem_singleton.mpr (duration ▸ field "duration")⟩
  | accessLink =>
    have area := Row.accessLink_spec (plain read)
    have point : row.2.required "access_point" = .ok a.accessPointId := by
      obtain ⟨_, _, rest⟩ := except_bind_eq_ok_iff.mp (plain read)
      obtain ⟨_, has, rest⟩ := except_bind_eq_ok_iff.mp rest
      repeat obtain ⟨_, _, rest⟩ := except_bind_eq_ok_iff.mp rest
      cases rest
      exact has
    exact List.forall_mem_cons.mpr
      ⟨Row.isWhole_required whole point, List.forall_mem_singleton.mpr (area ▸ field "stop_area")⟩
  | _ => exact fun _ given => absurd given List.not_mem_nil

/-! ## Rejections -/

theorem Registry.isWhole_of_lookUp {α : Type} [Entity α] {r : Registry} {reference : Reference}
    {problem : Problem} (whole : reference.IsWhole)
    (failed : r.lookUp (α := α) reference = .error problem) : problem.message.IsWhole := by
  rcases Load.scalar_or_unusable reference with ⟨id, rfl⟩ | unusable
  · unfold lookUp at failed
    dsimp only [Value.id?] at failed
    split at failed
    · cases failed
    · cases failed
      exact whole.display.after_string _
  · rw [Load.lookUp_of_unusable r unusable] at failed
    cases failed
    exact whole.display.after_string _

theorem Edit.Refusal.isWhole {r : Registry} {holder item : Reference} {problem : Problem}
    (refusal : Refusal r holder item problem) (holderWhole : holder.IsWhole)
    (itemWhole : item.IsWhole) : (⟨holder, item, problem⟩ : Rejection).message.IsWhole := by
  have reason : problem.message.IsWhole := by
    cases refusal with
    | holder failed => exact Registry.isWhole_of_lookUp holderWhole failed
    | item failed => exact Registry.isWhole_of_lookUp itemWhole failed
    | rule area held relation => exact Text.isWhole_string _
  have ends := (holderWhole.display.then_string " -> ").append itemWhole.display
  exact (ends.then_string ": ").append reason

def Loading.RejectsWhole (s : Loading) : Prop :=
  ∀ rejection ∈ s.rejected, rejection.message.IsWhole

namespace Load

def KeepsWhole (s t : Loading) : Prop := s.RejectsWhole → t.RejectsWhole

theorem KeepsWhole.trans {s t u : Loading} (first : KeepsWhole s t) (second : KeepsWhole t u) :
    KeepsWhole s u :=
  fun whole => second (first whole)

abbrev Prints {α : Type} (x : Load α) : Prop := Moves KeepsWhole (fun _ _ => True) x

section
variable {α γ : Type} {row document : Row}

theorem Follows.prints {x : Load α} (follows : Follows x) : Prints x := by
  intro s a t done
  obtain ⟨_, same, _⟩ := follows s a t done
  refine ⟨fun whole => ?_, trivial⟩
  rwa [Loading.RejectsWhole, same]

theorem prints_contain {edit : Edit Unit} {holder item : Reference}
    (refuses : edit.Refuses holder item) (holderWhole : holder.IsWhole)
    (itemWhole : item.IsWhole) : Prints (contain edit holder item) := by
  intro s a t done
  refine ⟨fun whole => ?_, trivial⟩
  rcases contain_cases refuses done with ⟨r, _, rfl⟩ | ⟨problem, refusal, rfl⟩
  · exact whole
  · have told := refusal.isWhole holderWhole itemWhole
    exact List.forall_mem_append.mpr ⟨whole, List.forall_mem_singleton.mpr told⟩

theorem prints_apply (edit : Edit α) : Prints (apply edit) := by
  intro s a t done
  obtain ⟨r, _, rfl⟩ := apply_eq_ok_iff.mp done
  exact ⟨id, trivial⟩

theorem prints_forM {rows : List γ} {enter : γ → Load PUnit}
    (each : ∀ row ∈ rows, Prints (enter row)) : Prints (rows.forM enter) :=
  Moves.forM (fun _ => id) KeepsWhole.trans each

theorem prints_table {name : String} {enter : Row → Load Unit} (whole : document.IsWhole)
    (each : ∀ row : Row, row.IsWhole → Prints (enter row)) :
    Prints (table document name enter) :=
  Moves.after_check fun _ has =>
    prints_forM fun row given => each row (Row.isWhole_items whole has row given)

theorem prints_enterStopArea (row : Row) : Prints (enterStopArea row) := by
  intro s _ t done
  obtain ⟨_, _, enters⟩ := enterStopArea_spec done
  refine ⟨fun whole => ?_, trivial⟩
  rwa [Loading.RejectsWhole, enters.rejected]

theorem prints_enterParent (whole : row.IsWhole) : Prints (enterParent row) := by
  unfold enterParent
  dsimp only
  split
  · refine Moves.after_check fun child has => ?_
    exact prints_contain (Edit.nest_refuses _ _) (Row.isWhole_field whole "parent")
      (Row.isWhole_required whole has)
  · exact (follows_pure ()).prints

theorem prints_enterStopPoint (whole : row.IsWhole) : Prints (enterStopPoint row) := by
  refine Moves.after_check fun stop read => ?_
  have own : (Value.scalar stop.id).IsWhole := Row.isWhole_required whole (Row.stopPoint_spec read)
  refine (prints_apply (Edit.enter stop)).seq KeepsWhole.trans fun _ => ?_
  dsimp only
  split
  · exact prints_contain (Edit.site_refuses _ _) (Row.isWhole_field whole "stop_area") own
  · exact (follows_pure ()).prints

theorem prints_enterConstraints (whole : row.IsWhole) : Prints (enterConstraints row) := by
  refine Moves.after_check fun areas hasAreas => ?_
  refine (prints_forM fun entry given => ?_).seq KeepsWhole.trans fun _ => ?_
  · refine Moves.after_check fun holder has => ?_
    exact prints_contain (Edit.constrainArea_refuses _ _) (Row.isWhole_required whole has)
      (Row.isWhole_items whole hasAreas entry given)
  · refine Moves.after_check fun lines hasLines => ?_
    refine prints_forM fun entry given => ?_
    refine Moves.after_check fun holder has => ?_
    exact prints_contain (Edit.constrainLine_refuses _ _) (Row.isWhole_required whole has)
      (Row.isWhole_items whole hasLines entry given)

theorem prints_tellRejected : Prints tellRejected := by
  intro s _ t done
  obtain ⟨events, ran⟩ := tellRejected_run s
  rw [ran] at done
  cases done
  exact ⟨id, trivial⟩

theorem prints_sections (whole : document.IsWhole) : Prints (sections document) := by
  rw [sections_eq]
  refine (follows_preamble document).prints.seq KeepsWhole.trans fun _ => ?_
  refine (prints_table whole fun row _ => prints_enterStopArea row).seq KeepsWhole.trans fun _ => ?_
  refine (prints_table whole fun _ => prints_enterParent).seq KeepsWhole.trans fun _ => ?_
  refine (prints_table whole fun _ => prints_enterStopPoint).seq KeepsWhole.trans fun _ => ?_
  refine (follows_services document).prints.seq KeepsWhole.trans fun _ => ?_
  refine (prints_table whole fun _ => prints_enterConstraints).seq KeepsWhole.trans fun _ => ?_
  exact prints_tellRejected

end
end Load

/-! ## What is loaded -/

/-- What a validation may tell of a loaded network can be printed. -/
structure Loading.IsWhole (loading : Loading) : Prop where
  ids : ∀ kind : Kind, ∀ id ∈ (Entity.table (α := kind.Entry) loading.registry).ids,
    (Value.scalar id).IsWhole
  details : ∀ kind : Kind, ∀ a ∈ (Entity.table (α := kind.Entry) loading.registry).members,
    ∀ v ∈ kind.details a, v.IsWhole
  rejected : loading.RejectsWhole

theorem Loading.IsWhole.own {loading : Loading} (whole : loading.IsWhole) (kind : Kind)
    {a : kind.Entry} (there : a ∈ (Entity.table (α := kind.Entry) loading.registry).members) :
    (Value.scalar (key a)).IsWhole :=
  whole.ids kind _ (List.mem_map_of_mem there)

theorem Load.isWhole_of_sections {document : Row} {loading : Loading} (whole : document.IsWhole)
    (loaded : sections document {} = .ok () loading) : loading.IsWhole where
  ids kind id named := by
    rw [ids_of_sections loaded kind] at named
    obtain ⟨row, given, rfl⟩ := List.mem_map.mp named
    obtain ⟨owned, listed, rfl⟩ := List.mem_map.mp given
    exact Row.isWhole_ownId (Row.isWhole_owned whole kind owned listed)
  details kind a member := by
    by_cases stop : kind = .stopPoint
    · subst stop
      exact fun _ given => absurd given List.not_mem_nil
    · rw [members_of_sections loaded kind stop] at member
      obtain ⟨row, listed, read⟩ := List.mem_filterMap.mp member
      exact kind.isWhole_details (Row.isWhole_owned whole kind row listed) read
  rejected := (prints_sections whole {} () loading loaded).1 fun _ none => absurd none List.not_mem_nil

end LineClosure
