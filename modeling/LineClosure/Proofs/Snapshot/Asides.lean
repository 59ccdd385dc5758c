import LineClosure.Proofs.Snapshot.Containments
import Mathlib.Data.List.Perm.Basic

/-! Sections that are not about containments. They leave them alone, and they run alike on
registries that have the same stop areas and stop points in another order. -/

namespace LineClosure

open Keyed

theorem Roster.find?_of_perm {α : Type} [Keyed α] {r s : Roster α}
    (perm : r.members.Perm s.members) (id : Id) : s.find? id = r.find? id := by
  cases found : r.find? id with
  | some a =>
    obtain ⟨member, same⟩ := find?_eq_some_iff.mp found
    exact find?_eq_some_iff.mpr ⟨perm.mem_iff.mp member, same⟩
  | none =>
    cases other : s.find? id with
    | none => rfl
    | some a =>
      obtain ⟨member, same⟩ := find?_eq_some_iff.mp other
      rw [find?_eq_some_iff.mpr ⟨perm.mem_iff.mpr member, same⟩] at found
      cases found

theorem Roster.contains_of_perm {α : Type} [Keyed α] {r s : Roster α}
    (perm : r.members.Perm s.members) (id : Id) : s.contains id = r.contains id := by
  rw [contains_eq_isSome, contains_eq_isSome, find?_of_perm perm]

namespace Registry

structure Aside (r t : Registry) : Prop where
  areas : t.stopAreas = r.stopAreas
  stops : t.stopPoints.ids = r.stopPoints.ids
  nesting : t.nesting = r.nesting
  siting : t.siting = r.siting
  constrainedAreas : t.constrainedAreas = r.constrainedAreas
  constrainedLines : t.constrainedLines = r.constrainedLines

theorem aside_refl (r : Registry) : r.Aside r := ⟨rfl, rfl, rfl, rfl, rfl, rfl⟩

theorem Aside.trans {r s t : Registry} (first : r.Aside s) (second : s.Aside t) : r.Aside t where
  areas := second.areas.trans first.areas
  stops := second.stops.trans first.stops
  nesting := second.nesting.trans first.nesting
  siting := second.siting.trans first.siting
  constrainedAreas := second.constrainedAreas.trans first.constrainedAreas
  constrainedLines := second.constrainedLines.trans first.constrainedLines

/-- Two registries agree on all but their containments, and on the order of their stop areas
and stop points. -/
structure Alike (r s : Registry) : Prop where
  areas : r.stopAreas.members.Perm s.stopAreas.members
  stops : r.stopPoints.members.Perm s.stopPoints.members
  elsewhere : s.elsewhere = r.elsewhere

theorem Alike.lookUp {r s : Registry} (alike : r.Alike s) (reference : Reference) :
    s.lookUp (α := StopArea) reference = r.lookUp reference := by
  unfold Registry.lookUp
  cases reference.id? with
  | none => rfl
  | some id =>
    dsimp only
    rw [show (Entity.table s).find? id = (Entity.table r).find? id from
      Roster.find?_of_perm alike.areas id]

structure Beside (change : Registry → Registry) : Prop where
  aside (r : Registry) : r.Aside (change r)
  stops (r : Registry) : (change r).stopPoints = r.stopPoints
  elsewhere (r : Registry) : (change r).elsewhere = change r.elsewhere

theorem Beside.alike {change : Registry → Registry} (beside : Beside change) {r s : Registry}
    (alike : r.Alike s) : (change r).Alike (change s) where
  areas := by
    rw [(beside.aside r).areas, (beside.aside s).areas]
    exact alike.areas
  stops := by
    rw [beside.stops, beside.stops]
    exact alike.stops
  elsewhere := by rw [beside.elsewhere, beside.elsewhere, alike.elsewhere]

end Registry

open Registry

structure IsElsewhere (α : Type) [Entity α] : Prop where
  table : ∀ r : Registry, Entity.table (α := α) r.elsewhere = Entity.table r
  beside : ∀ table : Roster α, Beside fun r => Entity.withTable r table

def Record.IsElsewhere : Record → Prop
  | .stopArea _ | .stopPoint _ => False
  | _ => True

theorem isElsewhere {α : Type} {kind : Entity α} (record : Record) {a : α}
    (is : record.entity? = some ⟨α, kind, a⟩) (apart : record.IsElsewhere) : IsElsewhere α := by
  cases record with
  | calendarDay | period | tally => cases is
  | stopArea | stopPoint => cases apart
  | _ =>
    cases is
    exact ⟨fun _ => rfl, fun _ => ⟨fun _ => ⟨rfl, rfl, rfl, rfl, rfl, rfl⟩, fun _ => rfl,
      fun _ => rfl⟩⟩

namespace Edit

variable {α β : Type}

/-- A change that leaves containments alone and goes alike on registries that are alike. -/
def Follows (edit : Edit α) : Prop :=
  ∀ r a t, edit r = .ok a t → r.Aside t ∧
    ∀ s, r.Alike s → ∃ u, edit s = .ok a u ∧ t.Alike u

section
variable [Entity α] (is : IsElsewhere α)

include is

theorem table_of_alike {r s : Registry} (alike : r.Alike s) :
    Entity.table (α := α) s = Entity.table r := by
  rw [← is.table s, alike.elsewhere, is.table]

theorem follows_enter (a : α) : Follows (enter a) := by
  intro r _ t done
  obtain ⟨fresh, rfl⟩ := enter_eq_ok_iff.mp done
  have beside := is.beside ((Entity.table r).insert a)
  refine ⟨beside.aside r, fun s alike => ?_⟩
  have same := table_of_alike is alike
  refine ⟨_, enter_eq_ok_iff.mpr ⟨same ▸ fresh, rfl⟩, ?_⟩
  rw [same]
  exact beside.alike alike

theorem follows_adopt (stamp : α → Nat) (a : α) : Follows (adopt stamp a) := by
  intro r _ t done
  rw [adopt_run] at done
  split at done
  · next fresh =>
    cases done
    have beside := is.beside ((Entity.table r).insert a)
    refine ⟨beside.aside r, fun s alike => ?_⟩
    have same := table_of_alike is alike
    refine ⟨Entity.withTable s ((Entity.table r).insert a), ?_, beside.alike alike⟩
    rw [adopt_run, same, fresh]
  · next present found =>
    split at done
    · cases done
    · next known =>
      cases done
      refine ⟨aside_refl r, fun s alike => ⟨s, ?_, alike⟩⟩
      rw [adopt_run, table_of_alike is alike, found]
      exact if_neg known

theorem follows_join (area : Reference) (stamp : α → Nat) (a : α)
    {attach : StopArea → Registry → Registry} (beside : ∀ holder, Beside (attach holder)) :
    Follows (do
      let area ← require StopArea area
      adopt stamp a
      modify (attach area)) := by
  intro r _ t done
  rw [join_run] at done
  split at done
  · cases done
  · next holder found =>
    split at done
    · cases done
    · next u adopted =>
      cases done
      obtain ⟨aside, follows⟩ := follows_adopt is stamp a r _ u adopted
      refine ⟨aside.trans ((beside holder).aside u), fun s alike => ?_⟩
      obtain ⟨v, again, same⟩ := follows s alike
      refine ⟨attach holder v, ?_, (beside holder).alike same⟩
      rw [join_run, alike.lookUp, found]
      dsimp only
      rw [again]

end

theorem follows_joinConnection (area : Reference) (link : ConnectionLink) (side : LinkEnd) :
    Follows (joinConnection area link side) := by
  rw [joinConnection_eq]
  apply follows_join (isElsewhere (.connectionLink link) rfl trivial)
  intro holder
  cases side with
  | start => exact ⟨fun _ => ⟨rfl, rfl, rfl, rfl, rfl, rfl⟩, fun _ => rfl, fun _ => rfl⟩
  | finish => exact ⟨fun _ => ⟨rfl, rfl, rfl, rfl, rfl, rfl⟩, fun _ => rfl, fun _ => rfl⟩

theorem follows_joinAccessLink (area : Reference) (link : AccessLink) :
    Follows (joinAccessLink area link) := by
  apply follows_join (isElsewhere (.accessLink link) rfl trivial)
  exact fun _ => ⟨fun _ => ⟨rfl, rfl, rfl, rfl, rfl, rfl⟩, fun _ => rfl, fun _ => rfl⟩

theorem follows_joinAccessPoint (area : Reference) (point : AccessPoint) :
    Follows (joinAccessPoint area point) := by
  apply follows_join (isElsewhere (.accessPoint point) rfl trivial)
  exact fun _ => ⟨fun _ => ⟨rfl, rfl, rfl, rfl, rfl, rfl⟩, fun _ => rfl, fun _ => rfl⟩

end Edit

namespace Load

variable {α β γ : Type}

/-- A load that leaves containments alone, rejects none, and goes alike on registries that are
alike. -/
def Follows (x : Load α) : Prop :=
  ∀ s a t, x s = .ok a t → s.registry.Aside t.registry ∧ t.rejected = s.rejected ∧
    ∀ v : Loading, s.registry.Alike v.registry →
      ∃ w, x v = .ok a w ∧ t.registry.Alike w.registry

theorem follows_pure (a : α) : Follows (pure a : Load α) := by
  intro s b t done
  cases done
  exact ⟨aside_refl _, rfl, fun v alike => ⟨v, rfl, alike⟩⟩

theorem follows_tell (e : Event) : Follows (tell e) := by
  intro s a t done
  cases done
  exact ⟨aside_refl _, rfl, fun v alike => ⟨_, rfl, alike⟩⟩

theorem follows_check {x : Except Failure α} : Follows (check x) := by
  intro s a t done
  obtain ⟨read, rfl⟩ := check_eq_ok_iff.mp done
  exact ⟨aside_refl _, rfl, fun v alike => ⟨v, check_eq_ok_iff.mpr ⟨read, rfl⟩, alike⟩⟩

theorem follows_apply {edit : Edit α} (follows : edit.Follows) : Follows (apply edit) := by
  intro s a t done
  obtain ⟨r, edited, rfl⟩ := apply_eq_ok_iff.mp done
  obtain ⟨aside, again⟩ := follows _ _ _ edited
  refine ⟨aside, rfl, fun v alike => ?_⟩
  obtain ⟨u, same, still⟩ := again v.registry alike
  exact ⟨_, apply_eq_ok_iff.mpr ⟨u, same, rfl⟩, still⟩

theorem follows_modify {change : Loading → Loading}
    (aside : ∀ s : Loading, s.registry.Aside (change s).registry)
    (rejected : ∀ s : Loading, (change s).rejected = s.rejected)
    (alike : ∀ s v : Loading, s.registry.Alike v.registry →
      (change s).registry.Alike (change v).registry) : Follows (modify change) := by
  intro s a t done
  cases done
  exact ⟨aside s, rejected s, fun v same => ⟨change v, rfl, alike s v same⟩⟩

theorem follows_beside {change : Registry → Registry} (beside : Beside change) :
    Follows (modify fun s => { s with registry := change s.registry }) :=
  follows_modify (fun s => beside.aside s.registry) (fun _ => rfl) fun _ _ => beside.alike

theorem follows_test {test : Loading → Bool} {x y : Load α}
    (same : ∀ s v : Loading, s.registry.Alike v.registry → test v = test s) (first : Follows x)
    (second : Follows y) : Follows (get >>= fun s => if test s = true then x else y) := by
  intro s a t done
  rw [get_bind] at done
  split at done
  · next there =>
    obtain ⟨aside, rejected, again⟩ := first s a t done
    refine ⟨aside, rejected, fun v alike => ?_⟩
    rw [get_bind, same s v alike, if_pos there]
    exact again v alike
  · next absent =>
    obtain ⟨aside, rejected, again⟩ := second s a t done
    refine ⟨aside, rejected, fun v alike => ?_⟩
    rw [get_bind, same s v alike, if_neg absent]
    exact again v alike

theorem Follows.bind {x : Load α} {rest : α → Load β} (first : Follows x)
    (second : ∀ a, Follows (rest a)) : Follows (x >>= rest) := by
  intro s b u done
  obtain ⟨a, t, before, after⟩ := bind_eq_ok_iff.mp done
  obtain ⟨aside, rejected, again⟩ := first s a t before
  obtain ⟨asideToo, rejectedToo, later⟩ := second a t b u after
  refine ⟨aside.trans asideToo, rejectedToo.trans rejected, fun v alike => ?_⟩
  obtain ⟨w, same, still⟩ := again v alike
  obtain ⟨z, last, end_⟩ := later w still
  exact ⟨z, (bind_ok same).trans last, end_⟩

theorem follows_forM {rows : List γ} {enter : γ → Load PUnit}
    (each : ∀ row, Follows (enter row)) : Follows (rows.forM enter) := by
  induction rows with
  | nil => exact follows_pure PUnit.unit
  | cons row rest ih => exact (each row).bind fun _ => ih

theorem follows_mapM {rows : List γ} {enter : γ → Load α} (each : ∀ row, Follows (enter row)) :
    Follows (rows.mapM enter) := by
  induction rows with
  | nil =>
    rw [List.mapM_nil]
    exact follows_pure []
  | cons row rest ih =>
    rw [List.mapM_cons]
    exact (each row).bind fun _ => ih.bind fun _ => follows_pure _

theorem follows_table {document : Row} {name : String} {enter : Row → Load Unit}
    (each : ∀ row, Follows (enter row)) : Follows (table document name enter) :=
  follows_check.bind fun _ => follows_forM each

theorem follows_attach {kind : Kind} {id : Id} {area : Reference} {edit : Edit Unit}
    (follows : edit.Follows) : Follows (attach kind id area edit) := by
  refine follows_check.bind fun areaId => ?_
  apply follows_test _ (follows_apply follows) (follows_tell _)
  exact fun _ _ alike => Roster.contains_of_perm alike.areas areaId

/-! ## Rows -/

theorem follows_enter [Entity α] (is : IsElsewhere α) (a : α) : Follows (apply (Edit.enter a)) :=
  follows_apply (Edit.follows_enter is a)

theorem follows_enterConnectionLink (row : Row) : Follows (enterConnectionLink row) := by
  refine follows_check.bind fun link => ?_
  refine (follows_enter (isElsewhere (.connectionLink link) rfl trivial) link).bind fun _ => ?_
  refine (follows_attach (Edit.follows_joinConnection _ _ _)).bind fun _ => ?_
  exact follows_attach (Edit.follows_joinConnection _ _ _)

theorem follows_enterAccessPoint (row : Row) : Follows (enterAccessPoint row) := by
  refine follows_check.bind fun point => ?_
  refine (follows_enter (isElsewhere (.accessPoint point) rfl trivial) point).bind fun _ => ?_
  refine follows_check.bind fun areaId => ?_
  apply follows_test _ (follows_attach (Edit.follows_joinAccessPoint _ point)) (follows_pure ())
  intro s v alike
  rw [Roster.contains_of_perm alike.areas]

theorem follows_enterAccessLink (row : Row) : Follows (enterAccessLink row) := by
  refine follows_check.bind fun link => ?_
  refine (follows_enter (isElsewhere (.accessLink link) rfl trivial) link).bind fun _ => ?_
  exact follows_attach (Edit.follows_joinAccessLink _ _)

theorem follows_enterVehicleJourney (patternId : Id) (row : Row) :
    Follows (enterVehicleJourney patternId row) := by
  refine follows_check.bind fun journey => ?_
  refine (follows_enter (isElsewhere (.vehicleJourney journey) rfl trivial) journey).bind
    fun _ => ?_
  exact follows_pure _

theorem follows_enterJourneyPattern (routeId : Id) (row : Row) :
    Follows (enterJourneyPattern routeId row) := by
  refine follows_check.bind fun pattern => ?_
  refine (follows_enter (isElsewhere (.journeyPattern pattern) rfl trivial) pattern).bind
    fun _ => ?_
  refine follows_check.bind fun rows => ?_
  refine (follows_mapM (follows_enterVehicleJourney pattern.id)).bind fun ids => ?_
  refine Follows.bind ?_ fun _ => follows_pure _
  have beside : Beside fun r : Registry =>
    { r with
      journeyPatterns := r.journeyPatterns.amend pattern.id
        (fun p => { p with vehicleJourneyIds := ids.map .scalar }) fun _ => rfl } :=
    ⟨fun _ => ⟨rfl, rfl, rfl, rfl, rfl, rfl⟩, fun _ => rfl, fun _ => rfl⟩
  exact follows_beside beside

/-- A stop point that gets its route keeps its identifier and its place. -/
theorem follows_claimStop (routeId : Id) (reference : Reference) :
    Follows (claimStop routeId reference) := by
  refine follows_check.bind fun stopId => ?_
  apply follows_modify
  · intro s
    refine ⟨rfl, ?_, rfl, rfl, rfl, rfl⟩
    apply Roster.ids_amend
    exact fun _ => rfl
  · intro s
    rfl
  · intro s v alike
    exact ⟨alike.areas, alike.stops.map _, alike.elsewhere⟩

theorem follows_enterRoute (lineId : Id) (row : Row) : Follows (enterRoute lineId row) := by
  refine follows_check.bind fun route => ?_
  refine (follows_enter (isElsewhere (.route route) rfl trivial) route).bind fun _ => ?_
  refine (follows_forM (follows_claimStop route.id)).bind fun _ => ?_
  refine follows_check.bind fun rows => ?_
  refine (follows_mapM (follows_enterJourneyPattern route.id)).bind fun ids => ?_
  refine Follows.bind ?_ fun _ => follows_pure _
  have beside : Beside fun r : Registry =>
    { r with
      routes := r.routes.amend route.id
        (fun a => { a with journeyPatternIds := ids.map .scalar }) fun _ => rfl } :=
    ⟨fun _ => ⟨rfl, rfl, rfl, rfl, rfl, rfl⟩, fun _ => rfl, fun _ => rfl⟩
  exact follows_beside beside

theorem follows_enterLine (row : Row) : Follows (enterLine row) := by
  refine follows_check.bind fun line => ?_
  refine (follows_enter (isElsewhere (.line line) rfl trivial) line).bind fun _ => ?_
  refine follows_check.bind fun rows => ?_
  refine (follows_mapM (follows_enterRoute line.id)).bind fun ids => ?_
  have beside : Beside fun r : Registry =>
    { r with
      lines := r.lines.amend line.id
        (fun l => { l with routeIds := ids.map .scalar }) fun _ => rfl } :=
    ⟨fun _ => ⟨rfl, rfl, rfl, rfl, rfl, rfl⟩, fun _ => rfl, fun _ => rfl⟩
  exact follows_beside beside

/-! ## Sections -/

def preamble (document : Row) : Load Unit := do
  table document "networks" fun row => do apply (Edit.enter (← check row.network))
  table document "companies" fun row => do apply (Edit.enter (← check row.company))
  table document "group_of_lines" fun row => do apply (Edit.enter (← check row.groupOfLines))

def services (document : Row) : Load Unit := do
  table document "connection_links" enterConnectionLink
  table document "access_points" enterAccessPoint
  table document "access_links" enterAccessLink
  table document "timetables" fun row => do apply (Edit.enter (← check row.timetable))
  table document "lines" enterLine

def tellRejected : Load Unit := do
  let rejected := (← get).rejected
  if !rejected.isEmpty then tell (.containmentsRejected rejected.length)

theorem sections_eq (document : Row) :
    sections document = (do
      preamble document
      table document "stop_areas" enterStopArea
      table document "stop_areas" enterParent
      table document "stop_points" enterStopPoint
      services document
      table document "stop_areas" enterConstraints
      tellRejected) := by
  simp only [sections, preamble, stopAreas, services, tellRejected, bind_assoc]

theorem follows_preamble (document : Row) : Follows (preamble document) := by
  refine (follows_table fun row => follows_check.bind fun network => ?_).bind fun _ => ?_
  · exact follows_enter (isElsewhere (.network network) rfl trivial) network
  refine (follows_table fun row => follows_check.bind fun company => ?_).bind fun _ => ?_
  · exact follows_enter (isElsewhere (.company company) rfl trivial) company
  refine follows_table fun row => follows_check.bind fun groups => ?_
  exact follows_enter (isElsewhere (.groupOfLines groups) rfl trivial) groups

theorem follows_services (document : Row) : Follows (services document) := by
  refine (follows_table follows_enterConnectionLink).bind fun _ => ?_
  refine (follows_table follows_enterAccessPoint).bind fun _ => ?_
  refine (follows_table follows_enterAccessLink).bind fun _ => ?_
  refine (follows_table fun row => follows_check.bind fun timetable => ?_).bind fun _ => ?_
  · exact follows_enter (isElsewhere (.timetable timetable) rfl trivial) timetable
  exact follows_table follows_enterLine

theorem tellRejected_run (s : Loading) :
    ∃ events, tellRejected s = .ok () { s with events } := by
  unfold tellRejected
  rw [get_bind]
  split
  · exact ⟨_, rfl⟩
  · exact ⟨_, rfl⟩

end Load
end LineClosure
