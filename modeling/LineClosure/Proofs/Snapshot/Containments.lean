import LineClosure.Proofs.Registry.Containment
import LineClosure.Proofs.Snapshot.Declarations

/-! Applying declarations one after the other. As long as no item is declared to be in two
places, each declaration that the rules allow adds one containment and touches no other, and
each that they refuse is noted once. -/

namespace LineClosure

open Keyed

def Relation.Places (relation : Relation) : Prop :=
  relation = .containedAreas ∨ relation = .containedStopPoints

namespace Registry

/-- A registry whose stop areas and stop points go by texts, with its placements in order. -/
structure Ready (r : Registry) : Prop where
  coherent : r.Coherent
  areas : ∀ a ∈ r.stopAreas.members, ∃ t, a.id = .text t
  stops : ∀ p ∈ r.stopPoints.members, ∃ t, p.id = .text t

def Fresh (r : Registry) (d : Declaration) : Prop :=
  d.relation.Places → ∀ holder, ¬r.Holds ⟨d.relation, holder, canonical d.item⟩

def withoutContainments (r : Registry) : Registry :=
  { r with nesting := {}, siting := {}, constrainedAreas := ∅, constrainedLines := ∅ }

def elsewhere (r : Registry) : Registry :=
  { r.withoutContainments with stopAreas := ∅, stopPoints := ∅ }

theorem stopAreas_of_others {r s : Registry}
    (others : s.withoutContainments = r.withoutContainments) : s.stopAreas = r.stopAreas := by
  have same := congrArg Registry.stopAreas others
  exact same

theorem stopPoints_of_others {r s : Registry}
    (others : s.withoutContainments = r.withoutContainments) : s.stopPoints = r.stopPoints := by
  have same := congrArg Registry.stopPoints others
  exact same

theorem elsewhere_of_others {r s : Registry}
    (others : s.withoutContainments = r.withoutContainments) : s.elsewhere = r.elsewhere :=
  congrArg (fun r : Registry => { r with stopAreas := ∅, stopPoints := ∅ }) others

structure Extends (r s : Registry) (added : Containment → Prop) : Prop where
  others : s.withoutContainments = r.withoutContainments
  coherent : s.Coherent
  holds : ∀ c, s.Holds c ↔ r.Holds c ∨ added c

variable {r s : Registry}

theorem text_of_resolve? {α : Type} [Keyed α] {table : Roster α}
    (texts : ∀ a ∈ table.members, ∃ t, key a = .text t) {reference : Reference} {a : α}
    (found : table.resolve? reference = some a) :
    ∃ t, key a = .text t ∧ reference = .scalar (.text t) := by
  obtain ⟨id, named, there⟩ := Option.bind_eq_some_iff.mp found
  obtain ⟨t, text⟩ := texts a (Roster.mem_of_find? there)
  have same := Roster.identity_of_find? there
  rw [identity, text] at same
  have spelled : id = .text t := canonical_eq_text_iff.mp same.symm
  refine ⟨t, text, ?_⟩
  cases reference with
  | scalar other =>
    cases named
    rw [spelled]
  | list items => cases named
  | object fields => cases named

/-! ## One declaration -/

section
variable {holder item : Reference} {problem : Problem}

theorem nest_refused (refused : r.nestLanding holder item = .error problem) :
    Edit.nest holder item r = .error problem r := by
  rw [Edit.nest_run]
  rcases except_bind_eq_error_iff.mp refused with missing | ⟨parent, hasParent, refused⟩
  · rw [missing]
  · rcases except_bind_eq_error_iff.mp refused with missing | ⟨child, hasChild, refused⟩
    · rw [hasParent, missing]
    · rw [hasParent, hasChild]
      split at refused
      · next forbidden =>
        cases refused
        exact if_pos forbidden
      · cases refused

theorem site_refused {stop : StopPoint} (found : r.stopPoints.resolve? item = some stop)
    (refused : r.landing ⟨.containedStopPoints, holder, item⟩ = .error problem) :
    Edit.site holder item r = .error problem r := by
  have there : r.lookUp (α := StopPoint) item = .ok stop := lookUp_eq_ok_iff_resolve?.mpr found
  rw [Edit.site_run, there]
  rcases except_bind_eq_error_iff.mp refused with missing | ⟨area, hasArea, refused⟩
  · rw [missing]
  · rw [hasArea]
    split at refused
    · next forbidden =>
      cases refused
      exact if_neg (by simpa using forbidden)
    · cases refused

theorem constrainArea_refused
    (refused : r.landing ⟨.constrainedAreas, holder, item⟩ = .error problem) :
    Edit.constrainArea holder item r = .error problem r := by
  rw [Edit.constrainArea_run]
  rcases except_bind_eq_error_iff.mp refused with missing | ⟨area, hasArea, refused⟩
  · rw [missing]
  · rcases except_bind_eq_error_iff.mp refused with missing | ⟨listed, hasListed, refused⟩
    · rw [hasArea, missing]
    · rw [hasArea, hasListed]
      dsimp only
      split at refused
      · next forbidden =>
        cases refused
        exact if_pos forbidden
      · next constraint =>
        rw [if_neg constraint]
        exact nest_refused refused

theorem constrainLine_refused
    (refused : r.landing ⟨.constrainedLines, holder, item⟩ = .error problem) :
    Edit.constrainLine holder item r = .error problem r := by
  rw [Edit.constrainLine_run]
  rcases except_bind_eq_error_iff.mp refused with missing | ⟨area, hasArea, refused⟩
  · rw [missing]
  · rw [hasArea]
    split at refused
    · next forbidden =>
      cases refused
      exact if_pos forbidden
    · cases refused

end

theorem edit_refused {d : Declaration} {problem : Problem}
    (placed : d.relation = .containedStopPoints → (r.stopPoints.resolve? d.item).isSome = true)
    (refused : r.landing d = .error problem) : d.edit r = .error problem r := by
  obtain ⟨relation, holder, item⟩ := d
  cases relation with
  | containedAreas => exact nest_refused refused
  | containedStopPoints =>
    -- the change looks the stop point up, the rule does not
    obtain ⟨stop, found⟩ := Option.isSome_iff_exists.mp (placed rfl)
    exact site_refused found refused
  | constrainedAreas => exact constrainArea_refused refused
  | constrainedLines => exact constrainLine_refused refused

theorem nowhere_of_fresh {p : Placement} {item : Text} (law : p.Mutual)
    (fresh : ∀ holder, ¬∃ id, Value.scalar (.text item) = .scalar id ∧ p.noted id = some holder) :
    p.noted (.text item) = none := by
  rcases law.holder_cases item with ⟨nowhere, _⟩ | ⟨holder, there, _⟩
  · exact nowhere
  · exact absurd ⟨_, rfl, there⟩ (fresh (.text holder))

section
variable {holder item : Reference} (ready : r.Ready)

include ready

theorem nest_listed {area listed : StopArea} (hasArea : r.stopAreas.resolve? holder = some area)
    (constraint : area.areaType = .routingConstraint)
    (hasListed : r.stopAreas.resolve? item = some listed)
    (apart : area.id.equals listed.id = false)
    (allowed : listed.areaType ∈ area.areaType.children) :
    ∃ s, Edit.nest holder item r = .ok () s ∧
      r.Extends s (· = ⟨.constrainedAreas, area.id, canonical item⟩) := by
  obtain ⟨p, areaId, rfl⟩ := text_of_resolve? ready.areas hasArea
  obtain ⟨i, listedId, rfl⟩ := text_of_resolve? ready.areas hasListed
  have areaIs : area.id = .text p := areaId
  have listedIs : listed.id = .text i := listedId
  have may : ¬(area.id.equals listed.id ∨ listed.areaType ∉ area.areaType.children) := by
    simp [apart, allowed]
  rw [Edit.nest_run, lookUp_eq_ok_iff_resolve?.mpr hasArea, lookUp_eq_ok_iff_resolve?.mpr hasListed]
  dsimp only
  rw [if_neg may, if_pos constraint, areaIs, listedIs]
  exact ⟨_, rfl, rfl, ⟨ready.coherent.nesting, ready.coherent.siting⟩, holds_areaListed p i⟩

theorem nest_lands {parent child : StopArea} (fresh : r.Fresh ⟨.containedAreas, holder, item⟩)
    (hasParent : r.stopAreas.resolve? holder = some parent)
    (hasChild : r.stopAreas.resolve? item = some child)
    (apart : parent.id.equals child.id = false)
    (allowed : child.areaType ∈ parent.areaType.children) :
    ∃ s, Edit.nest holder item r = .ok () s ∧
      r.Extends s (· = ⟨parent.areaType.childRelation, parent.id, canonical item⟩) := by
  by_cases constraint : parent.areaType = .routingConstraint
  · rw [AreaType.childRelation_of_eq constraint]
    exact nest_listed ready hasParent constraint hasChild apart allowed
  · obtain ⟨p, parentId, rfl⟩ := text_of_resolve? ready.areas hasParent
    obtain ⟨i, childId, rfl⟩ := text_of_resolve? ready.areas hasChild
    have parentIs : parent.id = .text p := parentId
    have childIs : child.id = .text i := childId
    have may : ¬(parent.id.equals child.id ∨ child.areaType ∉ parent.areaType.children) := by
      simp [apart, allowed]
    have nowhere := nowhere_of_fresh ready.coherent.nesting (fresh (Or.inl rfl))
    obtain ⟨q, done, puts⟩ := ready.coherent.nesting.put_ok p i
    rw [Edit.nest_run, lookUp_eq_ok_iff_resolve?.mpr hasParent,
      lookUp_eq_ok_iff_resolve?.mpr hasChild]
    dsimp only
    rw [if_neg may, if_neg constraint, parentIs, childIs, AreaType.childRelation_of_ne constraint]
    refine ⟨{ r with nesting := q }, ?_, rfl,
      ⟨ready.coherent.nesting.of_puts puts, ready.coherent.siting⟩, fun e => ?_⟩
    · unfold Edit.onNesting
      rw [done]
    · exact holds_nesting (fun _ _ => puts.noted_iff nowhere) e

theorem site_lands {area : StopArea} {stop : StopPoint}
    (fresh : r.Fresh ⟨.containedStopPoints, holder, item⟩)
    (hasArea : r.stopAreas.resolve? holder = some area)
    (boards : area.areaType.holdsStopPoints = true)
    (hasStop : r.stopPoints.resolve? item = some stop) :
    ∃ s, Edit.site holder item r = .ok () s ∧
      r.Extends s (· = ⟨.containedStopPoints, area.id, canonical item⟩) := by
  obtain ⟨p, areaId, rfl⟩ := text_of_resolve? ready.areas hasArea
  obtain ⟨i, stopId, rfl⟩ := text_of_resolve? ready.stops hasStop
  have areaIs : area.id = .text p := areaId
  have stopIs : stop.id = .text i := stopId
  have there : r.lookUp (α := StopPoint) (.scalar (.text i)) = .ok stop :=
    lookUp_eq_ok_iff_resolve?.mpr hasStop
  have nowhere := nowhere_of_fresh ready.coherent.siting (fresh (Or.inr rfl))
  obtain ⟨q, done, puts⟩ := ready.coherent.siting.put_ok p i
  rw [Edit.site_run, lookUp_eq_ok_iff_resolve?.mpr hasArea, there]
  dsimp only
  rw [if_pos boards, areaIs, stopIs]
  refine ⟨{ r with siting := q }, ?_, rfl,
    ⟨ready.coherent.nesting, ready.coherent.siting.of_puts puts⟩, fun e => ?_⟩
  · unfold Edit.onSiting
    rw [done]
  · exact holds_siting (fun _ _ => puts.noted_iff nowhere) e

/-- To list an area in a constraint is to nest it there. -/
theorem constrainArea_lands {area listed : StopArea}
    (hasArea : r.stopAreas.resolve? holder = some area)
    (constraint : area.areaType = .routingConstraint)
    (hasListed : r.stopAreas.resolve? item = some listed)
    (apart : area.id.equals listed.id = false)
    (allowed : listed.areaType ∈ area.areaType.children) :
    ∃ s, Edit.constrainArea holder item r = .ok () s ∧
      r.Extends s (· = ⟨.constrainedAreas, area.id, canonical item⟩) := by
  have may : ¬area.areaType ≠ .routingConstraint := not_not.mpr constraint
  rw [Edit.constrainArea_run, lookUp_eq_ok_iff_resolve?.mpr hasArea,
    lookUp_eq_ok_iff_resolve?.mpr hasListed]
  dsimp only
  rw [if_neg may]
  exact nest_listed ready hasArea constraint hasListed apart allowed

theorem constrainLine_lands {area : StopArea} (hasArea : r.stopAreas.resolve? holder = some area)
    (constraint : area.areaType = .routingConstraint) :
    ∃ s, Edit.constrainLine holder item r = .ok () s ∧
      r.Extends s (· = ⟨.constrainedLines, area.id, canonical item⟩) := by
  obtain ⟨p, areaId, rfl⟩ := text_of_resolve? ready.areas hasArea
  have areaIs : area.id = .text p := areaId
  rw [Edit.constrainLine_run, lookUp_eq_ok_iff_resolve?.mpr hasArea]
  dsimp only
  rw [if_neg (not_not.mpr constraint), areaIs]
  exact ⟨_, rfl, rfl, ⟨ready.coherent.nesting, ready.coherent.siting⟩, holds_lineListed p item⟩

end

theorem edit_lands (ready : r.Ready) {d : Declaration} {c : Containment}
    (placed : d.relation = .containedStopPoints → (r.stopPoints.resolve? d.item).isSome = true)
    (fresh : r.Fresh d) (lands : r.Lands d c) :
    ∃ s, d.edit r = .ok () s ∧ r.Extends s (· = c) := by
  cases lands with
  | nested hasParent hasChild apart allowed =>
    exact nest_lands ready fresh hasParent hasChild apart allowed
  | sited hasArea boards =>
    obtain ⟨stop, hasStop⟩ := Option.isSome_iff_exists.mp (placed rfl)
    exact site_lands ready fresh hasArea boards hasStop
  | areaListed hasArea constraint hasListed apart allowed =>
    exact constrainArea_lands ready hasArea constraint hasListed apart allowed
  | lineListed hasArea constraint => exact constrainLine_lands ready hasArea constraint

theorem Lands.placed {d : Declaration} {c : Containment} (lands : r.Lands d c)
    (placing : c.relation.Places) :
    d.relation = c.relation ∧ canonical d.item = c.item := by
  cases lands with
  | nested =>
    refine ⟨?_, rfl⟩
    rcases placing with inside | stop
    · exact inside.symm
    · dsimp only at stop
      unfold AreaType.childRelation at stop
      split at stop <;> cases stop
  | sited => exact ⟨rfl, rfl⟩
  | areaListed => rcases placing with same | same <;> cases same
  | lineListed => rcases placing with same | same <;> cases same

theorem lands_congr (same : s.stopAreas = r.stopAreas) {d : Declaration} {c : Containment} :
    s.Lands d c ↔ r.Lands d c := by
  have landings : s.landing = r.landing := landing_congr fun id => by rw [same]
  rw [← landing_eq_ok_iff, ← landing_eq_ok_iff, landings]

end Registry

def Problem.IsNoted : Problem → Prop
  | .forbidden .. | .unknown .. => True
  | _ => False

namespace Load

variable {s t u : Loading}

def declare (d : Declaration) : Load Unit := contain d.edit d.holder d.item

/-- A declaration is applied or noted. Otherwise it names something that is no identifier. -/
def Decides (s : Loading) (d : Declaration) : Prop :=
  ∀ problem, s.registry.landing d = .error problem → problem.IsNoted

/-- What a stop point is declared to be in is asked when the stop point is registered. -/
def Placeable (s : Loading) (d : Declaration) : Prop :=
  d.relation = .containedStopPoints → (s.registry.stopPoints.resolve? d.item).isSome = true

/-- Each of the declarations is applied or noted, once, and nothing else happens to the
containments. -/
structure Applies (s : Loading) (ds : List Declaration) (t : Loading) : Prop where
  areas : t.registry.stopAreas = s.registry.stopAreas
  ready : t.registry.Ready
  holds : ∀ c, t.registry.Holds c ↔ s.registry.Holds c ∨ ∃ d ∈ ds, s.registry.Lands d c
  rejected : t.rejected = s.rejected ++ ds.filterMap s.registry.rejection?

theorem applies_nothing (ready : s.registry.Ready) : Applies s [] s where
  areas := rfl
  ready := ready
  holds c := by simp
  rejected := (List.append_nil _).symm

theorem Applies.trans {ds es : List Declaration} (first : Applies s ds t)
    (second : Applies t es u) : Applies s (ds ++ es) u where
  areas := second.areas.trans first.areas
  ready := second.ready
  holds c := by
    rw [second.holds, first.holds, or_assoc]
    simp only [Registry.lands_congr first.areas, List.mem_append, or_and_right, exists_or]
  rejected := by
    have same : t.registry.rejection? = s.registry.rejection? :=
      Registry.rejection?_congr fun id => by rw [first.areas]
    rw [second.rejected, first.rejected, same, List.filterMap_append, List.append_assoc]

/-- Things that can be in one place only are declared once. -/
def Apart (ds : List Declaration) : Prop :=
  ds.Pairwise fun d e => d.relation = e.relation → d.relation.Places →
    canonical d.item ≠ canonical e.item

theorem Applies.fresh {ds : List Declaration} {e : Declaration} (applies : Applies s ds t)
    (fresh : s.registry.Fresh e)
    (apart : ∀ d ∈ ds, d.relation = e.relation → d.relation.Places →
      canonical d.item ≠ canonical e.item) : t.registry.Fresh e := by
  intro placing holder held
  rcases (applies.holds _).mp held with old | ⟨d, given, lands⟩
  · exact fresh placing holder old
  · obtain ⟨relation, item⟩ := lands.placed placing
    exact apart d given relation (relation ▸ placing) item

theorem Applies.decides_iff {ds : List Declaration} (applies : Applies s ds t)
    {e : Declaration} : Decides t e ↔ Decides s e := by
  have landings : t.registry.landing = s.registry.landing :=
    Registry.landing_congr fun id => by rw [applies.areas]
  unfold Decides
  rw [landings]

theorem contain_of_noted {edit : Edit Unit} {holder item : Reference} {problem : Problem}
    (refused : edit s.registry = .error problem s.registry) (noted : problem.IsNoted) :
    contain edit holder item s =
      .ok ()
        { s with
          rejected := s.rejected ++ [⟨holder, item, problem⟩]
          events := s.events ++ [.containmentRejected ⟨holder, item, problem⟩] } := by
  unfold contain
  rw [refused]
  cases problem with
  | forbidden => rfl
  | unknown => rfl
  | _ => cases noted

theorem contain_of_failed {edit : Edit Unit} {holder item : Reference} {problem : Problem}
    (refused : edit s.registry = .error problem s.registry) (failed : ¬problem.IsNoted) :
    contain edit holder item s = .error (.refused problem) s := by
  unfold contain
  rw [refused]
  cases problem with
  | forbidden => exact absurd trivial failed
  | unknown => exact absurd trivial failed
  | _ => rfl

theorem declare_runs {d : Declaration} (ready : s.registry.Ready) (placeable : Placeable s d)
    (fresh : s.registry.Fresh d) (decides : Decides s d) :
    ∃ t, declare d s = .ok () t ∧ Applies s [d] t ∧
      t.registry.withoutContainments = s.registry.withoutContainments := by
  unfold declare
  cases lands : s.registry.landing d with
  | error problem =>
    -- what does not land is rejected and contains nothing
    have refused := Registry.edit_refused placeable lands
    refine ⟨_, contain_of_noted refused (decides problem lands), ?_, rfl⟩
    refine ⟨rfl, ready, fun c => ?_, ?_⟩
    · refine (or_iff_left ?_).symm
      rintro ⟨e, given, other⟩
      rw [List.mem_singleton.mp given, ← Registry.landing_eq_ok_iff, lands] at other
      cases other
    · simp only [Registry.rejection?, lands, List.filterMap_cons, List.filterMap_nil]
  | ok c =>
    -- what lands adds the one containment that it lands in
    obtain ⟨r, done, more⟩ :=
      Registry.edit_lands ready placeable fresh (Registry.landing_eq_ok_iff.mp lands)
    have areas := Registry.stopAreas_of_others more.others
    have stops := Registry.stopPoints_of_others more.others
    refine ⟨{ s with registry := r }, by unfold contain; rw [done], ?_, more.others⟩
    refine ⟨areas, ⟨more.coherent, ?_, ?_⟩, fun e => ?_, ?_⟩
    · dsimp only
      rw [areas]
      exact ready.areas
    · dsimp only
      rw [stops]
      exact ready.stops
    · rw [more.holds]
      refine or_congr_right ⟨?_, ?_⟩
      · rintro rfl
        exact ⟨d, List.mem_singleton_self d, Registry.landing_eq_ok_iff.mp lands⟩
      · rintro ⟨f, given, other⟩
        rw [List.mem_singleton.mp given, ← Registry.landing_eq_ok_iff, lands] at other
        exact (Except.ok.inj other).symm
    · simp only [Registry.rejection?, lands, List.filterMap_cons, List.filterMap_nil,
        List.append_nil]

theorem decides_of_declare {d : Declaration} (placeable : Placeable s d)
    (done : declare d s = .ok () t) : Decides s d := by
  intro problem lands
  by_contra failed
  have refused := Registry.edit_refused placeable lands
  unfold declare at done
  rw [contain_of_failed refused failed] at done
  cases done

/-! ## Several declarations -/

section
variable {d : Declaration} {ds : List Declaration}

/-- What the declarations behind the first one rely on is as it was. -/
theorem Applies.later (applies : Applies s [d] t)
    (others : t.registry.withoutContainments = s.registry.withoutContainments)
    (placeable : ∀ e ∈ d :: ds, Placeable s e) (fresh : ∀ e ∈ d :: ds, s.registry.Fresh e)
    (apart : Apart (d :: ds)) :
    (∀ e ∈ ds, Placeable t e) ∧ (∀ e ∈ ds, t.registry.Fresh e) ∧ Apart ds := by
  obtain ⟨first, rest⟩ := List.pairwise_cons.mp apart
  refine ⟨fun e given => ?_, fun e given => ?_, rest⟩
  · unfold Placeable
    rw [Registry.stopPoints_of_others others]
    exact placeable e (List.mem_cons_of_mem d given)
  · apply applies.fresh (fresh e (List.mem_cons_of_mem d given))
    intro f single
    rw [List.mem_singleton.mp single]
    exact first e given

theorem forM_declare_runs (ready : s.registry.Ready) (placeable : ∀ d ∈ ds, Placeable s d)
    (fresh : ∀ d ∈ ds, s.registry.Fresh d) (apart : Apart ds) (decides : ∀ d ∈ ds, Decides s d) :
    ∃ t, ds.forM declare s = .ok () t ∧ Applies s ds t ∧
      t.registry.withoutContainments = s.registry.withoutContainments := by
  induction ds generalizing s with
  | nil => exact ⟨s, rfl, applies_nothing ready, rfl⟩
  | cons d rest ih =>
    obtain ⟨u, first, applies, others⟩ := declare_runs ready (placeable d List.mem_cons_self)
      (fresh d List.mem_cons_self) (decides d List.mem_cons_self)
    -- no later declaration is about the item that was just placed, so the rest is still fresh
    obtain ⟨placeable, fresh, apart⟩ := applies.later others placeable fresh apart
    obtain ⟨t, later, more, same⟩ := ih applies.ready placeable fresh apart fun e given =>
      applies.decides_iff.mpr (decides e (List.mem_cons_of_mem d given))
    exact ⟨t, (bind_ok first).trans later, applies.trans more, same.trans others⟩

theorem decides_of_forM (ready : s.registry.Ready) (placeable : ∀ d ∈ ds, Placeable s d)
    (fresh : ∀ d ∈ ds, s.registry.Fresh d) (apart : Apart ds)
    (done : ds.forM declare s = .ok () t) : ∀ d ∈ ds, Decides s d := by
  induction ds generalizing s with
  | nil => intro d given; cases given
  | cons d rest ih =>
    obtain ⟨_, u, first, later⟩ := bind_eq_ok_iff.mp done
    have decides := decides_of_declare (placeable d List.mem_cons_self) first
    -- run once more as a decided step, it tells what it has left behind
    obtain ⟨v, again, applies, others⟩ := declare_runs ready (placeable d List.mem_cons_self)
      (fresh d List.mem_cons_self) decides
    obtain rfl : v = u := by
      rw [first] at again
      cases again
      rfl
    obtain ⟨placeable, fresh, apart⟩ := applies.later others placeable fresh apart
    intro e given
    rcases List.mem_cons.mp given with rfl | behind
    · exact decides
    · exact applies.decides_iff.mp (ih applies.ready placeable fresh apart later e behind)

theorem forM_declare_spec (ready : s.registry.Ready) (placeable : ∀ d ∈ ds, Placeable s d)
    (fresh : ∀ d ∈ ds, s.registry.Fresh d) (apart : Apart ds)
    (done : ds.forM declare s = .ok () t) :
    (∀ d ∈ ds, Decides s d) ∧ Applies s ds t ∧
      t.registry.withoutContainments = s.registry.withoutContainments := by
  have decides := decides_of_forM ready placeable fresh apart done
  obtain ⟨u, again, applies, others⟩ := forM_declare_runs ready placeable fresh apart decides
  rw [done] at again
  cases again
  exact ⟨decides, applies, others⟩

end
end Load
end LineClosure
