import LineClosure.Proofs.Registry.Actions

/-! Every change ends as its effect says or refuses. Each operation is run once, past its
look-ups and guards; that placements are mutual is all it takes to rule out the failures
that no caller can cause. -/

namespace LineClosure

open Keyed

namespace Edit

section
variable {α : Type} {r : Registry}

theorem require_found [Entity α] {t : Text} {a : α}
    (found : (Entity.table r).find? (.text t) = some a) : require α t.reference r = .ok a r := by
  simp only [require, Registry.lookUp, Text.reference, Value.id?, found]

theorem require_missing [Entity α] {t : Text}
    (missing : (Entity.table (α := α) r).find? (.text t) = none) :
    require α t.reference r = .error (.unknown (Entity.kind α) (.text t)) r := by
  simp only [require, Registry.lookUp, Text.reference, Value.id?, missing]

variable {effect : Registry → Prop}

theorem ends_require [Entity α] {t : Text} {rest : α → Edit Unit}
    (each : ∀ a : α, (Entity.table r).find? (.text t) = some a → Ends r effect (rest a r)) :
    Ends r effect ((require α t.reference >>= rest) r) := by
  cases found : (Entity.table (α := α) r).find? (.text t) with
  | none =>
    rw [bind_error (require_missing found)]
    exact .refused trivial
  | some a =>
    rw [bind_ok (require_found found)]
    exact each a found

theorem ends_unless {c : Prop} [Decidable c] {problem : Problem} {rest : PUnit → Edit Unit}
    (expected : problem.IsRefusal) (going : ¬c → Ends r effect (rest () r)) :
    Ends r effect ((if c then throw problem >>= rest else rest ()) r) := by
  split
  · exact .refused expected
  · next fair => exact going fair

theorem enter_ends [Entity α] (a : α) :
    Ends r
      (fun s => (Entity.table (α := α) r).contains (key a) = false ∧
        s = Entity.withTable r ((Entity.table r).insert a))
      (enter a r) := by
  unfold enter
  rw [get_bind]
  split
  · exact .refused trivial
  · next fresh => exact .done ⟨Bool.eq_false_iff.mpr fresh, rfl⟩

theorem ends_adopt [Entity α] {stamp : α → Nat} {a : α} {rest : Unit → Edit Unit}
    (same : Entity.withTable r (Entity.table (α := α) r) = r)
    (each : ∀ table, Adopts stamp (Entity.table r) a table →
      Ends r effect (rest () (Entity.withTable r table))) :
    Ends r effect ((adopt stamp a >>= rest) r) := by
  -- an unknown record enters, the known one stays, and another one under its identifier is refused
  cases found : (Entity.table (α := α) r).find? (key a) with
  | none =>
    have entered : adopt stamp a r =
        .ok () (Entity.withTable r ((Entity.table r).insert a)) := by
      unfold adopt
      rw [get_bind]
      simp only [found]
      rfl
    rw [bind_ok entered]
    exact each _ (.enters found)
  | some present =>
    by_cases alike : stamp present = stamp a
    · have kept : adopt stamp a r = .ok () r := by
        unfold adopt
        rw [get_bind]
        simp only [found, alike, ne_eq, not_true_eq_false, ↓reduceIte]
        rfl
      have going := each _ (.known found alike)
      rw [same] at going
      rw [bind_ok kept]
      exact going
    · have refused : adopt stamp a r = .error (.duplicate (Entity.kind α) (key a)) r := by
        unfold adopt
        rw [get_bind]
        simp only [found, alike, ne_eq, not_false_eq_true, ↓reduceIte]
        rfl
      rw [bind_error refused]
      exact .refused trivial

end

/-! ## The operations -/

section
variable {r : Registry}

theorem register_foreign {record : Record} (foreign : record.entity? = none) :
    ∃ name, register record r = .error (.notAnEntity name) r := by
  cases record with
  | calendarDay | period | tally => exact ⟨_, rfl⟩
  | _ => cases foreign

theorem register_ends {record : Record} (known : record.entity? ≠ none) :
    Ends r (Effect r (.register record)) (register record r) := by
  have enters : ∀ {α : Type} (kind : Entity α) (a : α), record.entity? = some ⟨α, kind, a⟩ →
      Ends r (Effect r (.register record)) (enter a r) := by
    intro α kind a is
    have ends := enter_ends (r := r) a
    generalize enter a r = result at ends
    cases ends with
    | refused expected => exact .refused expected
    | done reached =>
      obtain ⟨fresh, rfl⟩ := reached
      exact .done (.register is fresh)
  cases record with
  | calendarDay | period | tally => exact absurd rfl known
  | _ => exact enters _ _ rfl

theorem onNesting_ok {change : Placement.Change Unit} {q : Placement}
    (done : change r.nesting = .ok () q) : onNesting change r = .ok () { r with nesting := q } := by
  simp only [onNesting, done]

theorem onSiting_ok {change : Placement.Change Unit} {q : Placement}
    (done : change r.siting = .ok () q) : onSiting change r = .ok () { r with siting := q } := by
  simp only [onSiting, done]

variable {p c : Text}

theorem nest_ends (m : r.nesting.Mutual) :
    Ends r (Effect r (.nest p c)) (nest p.reference c.reference r) := by
  refine ends_require fun parent hasParent => ends_require fun child hasChild =>
    ends_unless trivial fun fair => ?_
  have parentId : parent.id = .text p := Roster.key_of_find?_text hasParent
  have childId : child.id = .text c := Roster.key_of_find?_text hasChild
  rw [not_or, not_not] at fair
  have may : MayHold r p c parent child := by
    refine ⟨hasParent, hasChild, ?_, fair.2⟩
    intro same
    subst same
    exact fair.1 (by rw [parentId, childId, equals_text])
  dsimp only
  rw [parentId, childId]
  split
  · next constraint => exact .done (.nestInConstraint may constraint)
  · next inside =>
    obtain ⟨q, done, puts⟩ := m.put_ok p c
    rw [onNesting_ok done]
    exact .done (.nest may inside puts)

theorem unnest_ends (m : r.nesting.Mutual) :
    Ends r (Effect r (.unnest p c)) (unnest p.reference c.reference r) := by
  refine ends_require fun parent hasParent => ?_
  have parentId : parent.id = .text p := Roster.key_of_find?_text hasParent
  simp only [Text.reference, Value.id?]
  rw [parentId]
  split
  · next constraint => exact .done (.unnestFromConstraint hasParent constraint)
  · next inside =>
    obtain ⟨q, done, takes⟩ := m.take_ok p c
    rw [onNesting_ok done]
    exact .done (.unnest hasParent inside takes)

theorem constrainArea_ends (m : r.nesting.Mutual) :
    Ends r (Effect r (.constrainArea p c)) (constrainArea p.reference c.reference r) := by
  refine ends_require fun area hasArea => ends_require fun child _ =>
    ends_unless trivial fun constraint => ?_
  rw [ne_eq, not_not] at constraint
  have ends := nest_ends (p := p) (c := c) m
  dsimp only
  generalize nest p.reference c.reference r = result at ends
  cases ends with
  | refused expected => exact .refused expected
  | done reached =>
    cases reached with
    | nest may inside =>
      have same := Option.some.inj (hasArea.symm.trans may.hasParent)
      exact absurd (same ▸ constraint) inside
    | nestInConstraint may constraint => exact .done (.constrainArea may constraint)

theorem unconstrainArea_ends :
    Ends r (Effect r (.unconstrainArea p c)) (unconstrainArea p.reference c.reference r) := by
  refine ends_require fun area hasArea => ends_require fun child hasChild =>
    ends_unless trivial fun constraint => ?_
  have areaId : area.id = .text p := Roster.key_of_find?_text hasArea
  have childId : child.id = .text c := Roster.key_of_find?_text hasChild
  rw [ne_eq, not_not] at constraint
  rw [areaId, childId]
  exact .done (.unconstrainArea hasArea hasChild constraint)

theorem site_ends (m : r.siting.Mutual) :
    Ends r (Effect r (.site p c)) (site p.reference c.reference r) := by
  refine ends_require fun area hasArea => ends_require fun stop hasStop =>
    ends_unless trivial fun boards => ?_
  have areaId : area.id = .text p := Roster.key_of_find?_text hasArea
  have stopId : stop.id = .text c := Roster.key_of_find?_text hasStop
  rw [Bool.not_eq_true', Bool.not_eq_false] at boards
  obtain ⟨q, done, puts⟩ := m.put_ok p c
  dsimp only
  rw [areaId, stopId, onSiting_ok done]
  exact .done (.site hasArea hasStop boards puts)

theorem unsite_ends (m : r.siting.Mutual) :
    Ends r (Effect r (.unsite p c)) (unsite p.reference c.reference r) := by
  obtain ⟨q, done, takes⟩ := m.take_ok p c
  have run : unsite p.reference c.reference r =
      onSiting (Placement.take (.text p) (.text c)) r := rfl
  rw [run, onSiting_ok done]
  exact .done (.unsite takes)

theorem constrainLine_ends :
    Ends r (Effect r (.constrainLine p c)) (constrainLine p.reference c.reference r) := by
  refine ends_require fun area hasArea => ends_unless trivial fun constraint => ?_
  have areaId : area.id = .text p := Roster.key_of_find?_text hasArea
  rw [ne_eq, not_not] at constraint
  rw [areaId]
  exact .done (.constrainLine hasArea constraint)

theorem unconstrainLine_ends :
    Ends r (Effect r (.unconstrainLine p c)) (unconstrainLine p.reference c.reference r) := by
  refine ends_require fun area hasArea => ends_unless trivial fun constraint => ?_
  have areaId : area.id = .text p := Roster.key_of_find?_text hasArea
  rw [ne_eq, not_not] at constraint
  rw [areaId]
  exact .done (.unconstrainLine hasArea constraint)

theorem joinConnection_ends (link : ConnectionLink) (side : LinkEnd) :
    Ends r (Effect r (.joinConnection p link side)) (joinConnection p.reference link side r) := by
  refine ends_require fun area hasArea => ends_adopt rfl fun table adopts => ?_
  have areaId : area.id = .text p := Roster.key_of_find?_text hasArea
  cases side with
  | start =>
    dsimp only
    rw [areaId]
    exact .done (.joinStart hasArea adopts)
  | finish =>
    dsimp only
    rw [areaId]
    exact .done (.joinFinish hasArea adopts)

theorem joinAccessLink_ends (link : AccessLink) :
    Ends r (Effect r (.joinAccessLink p link)) (joinAccessLink p.reference link r) := by
  refine ends_require fun area hasArea => ends_adopt rfl fun table adopts => ?_
  have areaId : area.id = .text p := Roster.key_of_find?_text hasArea
  rw [areaId]
  exact .done (.joinAccessLink hasArea adopts)

theorem joinAccessPoint_ends (point : AccessPoint) :
    Ends r (Effect r (.joinAccessPoint p point)) (joinAccessPoint p.reference point r) := by
  refine ends_require fun area hasArea => ends_adopt rfl fun table adopts => ?_
  have areaId : area.id = .text p := Roster.key_of_find?_text hasArea
  rw [areaId]
  exact .done (.joinAccessPoint hasArea adopts)

theorem retype_ends (type : AreaType) :
    Ends r (Effect r (.retype p type)) (retype p.reference type r) := by
  refine ends_require fun area hasArea => ?_
  have areaId : area.id = .text p := Roster.key_of_find?_text hasArea
  rw [areaId]
  exact .done (.retype hasArea)

end
end Edit

theorem Action.edit_foreign {r : Registry} {action : Action} (foreign : action.IsForeign) :
    ∃ name, action.edit r = .error (.notAnEntity name) r := by
  cases action with
  | register record => exact Edit.register_foreign foreign
  | _ => exact foreign.elim

/-- Every other change of a registry in which placements are mutual refuses, touching nothing,
or has its effect. -/
theorem Action.edit_ends {r : Registry} (nesting : r.nesting.Mutual) (siting : r.siting.Mutual)
    {action : Action} (known : ¬action.IsForeign) :
    Ends r (Effect r action) (action.edit r) := by
  cases action with
  | register record => exact Edit.register_ends known
  | nest => exact Edit.nest_ends nesting
  | unnest => exact Edit.unnest_ends nesting
  | constrainArea => exact Edit.constrainArea_ends nesting
  | unconstrainArea => exact Edit.unconstrainArea_ends
  | site => exact Edit.site_ends siting
  | unsite => exact Edit.unsite_ends siting
  | constrainLine => exact Edit.constrainLine_ends
  | unconstrainLine => exact Edit.unconstrainLine_ends
  | joinConnection _ link side => exact Edit.joinConnection_ends link side
  | dropConnection => exact .done .dropConnection
  | joinAccessLink _ link => exact Edit.joinAccessLink_ends link
  | dropAccessLink => exact .done .dropAccessLink
  | joinAccessPoint _ point => exact Edit.joinAccessPoint_ends point
  | dropAccessPoint => exact .done .dropAccessPoint
  | retype _ type => exact Edit.retype_ends type

theorem Action.edit_cases {r : Registry} (nesting : r.nesting.Mutual) (siting : r.siting.Mutual)
    (action : Action) :
    (∃ s, action.edit r = .ok () s ∧ Effect r action s) ∨
      ∃ problem, action.edit r = .error problem r ∧
        (problem.IsRefusal ∨ action.IsForeign ∧ ∃ name, problem = .notAnEntity name) := by
  by_cases foreign : action.IsForeign
  · obtain ⟨name, thrown⟩ := Action.edit_foreign (r := r) foreign
    exact Or.inr ⟨_, thrown, Or.inr ⟨foreign, name, rfl⟩⟩
  · have ends := Action.edit_ends nesting siting foreign
    generalize action.edit r = result at ends
    cases ends with
    | refused expected => exact Or.inr ⟨_, rfl, Or.inl expected⟩
    | done reached => exact Or.inl ⟨_, rfl, reached⟩

theorem Action.effect_of_ok {r s : Registry} (nesting : r.nesting.Mutual)
    (siting : r.siting.Mutual) {action : Action} (done : action.edit r = .ok () s) :
    Effect r action s := by
  rcases action.edit_cases nesting siting with ⟨_, same, effect⟩ | ⟨_, thrown, _⟩
  · rw [done] at same
    cases same
    exact effect
  · rw [done] at thrown
    cases thrown

theorem Action.after_cases {r : Registry} (nesting : r.nesting.Mutual) (siting : r.siting.Mutual)
    (action : Action) : action.after r = r ∨ Effect r action (action.after r) := by
  unfold after
  rcases action.edit_cases nesting siting with ⟨s, done, effect⟩ | ⟨problem, thrown, _⟩
  · rw [done]
    exact Or.inr effect
  · rw [thrown]
    exact Or.inl rfl

end LineClosure
