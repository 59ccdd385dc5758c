import LineClosure.Proofs.Registry.Containment

/-! A change that is refused leaves no trace. What is refused is what the rules forbid, what
names nothing, what is there already, or a record without a table; a registry that changes
have led to is never found out of order. Nesting and siting are refused no more often than
the rules ask for. -/

namespace LineClosure

namespace Edit

variable {r : Registry} {p c : Text}

theorem nest_ok (m : r.nesting.Mutual) {parent child : StopArea}
    (may : MayHold r p c parent child) : ∃ s, nest p.reference c.reference r = .ok () s := by
  have parentId : parent.id = .text p := Roster.key_of_find?_text may.hasParent
  have childId : child.id = .text c := Roster.key_of_find?_text may.hasChild
  have fair : ¬(parent.id.equals child.id = true ∨ child.areaType ∉ parent.areaType.children) := by
    rw [parentId, childId, equals_text]
    rintro (same | forbidden)
    · exact may.apart (Scalar.text.inj same)
    · exact forbidden may.allowed
  unfold nest
  rw [bind_ok (require_found may.hasParent), bind_ok (require_found may.hasChild)]
  simp only [fair, ↓reduceIte]
  split
  · exact ⟨_, rfl⟩
  · obtain ⟨q, done, _⟩ := m.put_ok p c
    rw [parentId, childId, onNesting_ok done]
    exact ⟨_, rfl⟩

theorem site_ok (m : r.siting.Mutual) {area : StopArea} {stop : StopPoint}
    (hasArea : r.stopAreas.find? (.text p) = some area)
    (hasStop : r.stopPoints.find? (.text c) = some stop)
    (boards : area.areaType.holdsStopPoints = true) :
    ∃ s, site p.reference c.reference r = .ok () s := by
  have areaId : area.id = .text p := Roster.key_of_find?_text hasArea
  have stopId : stop.id = .text c := Roster.key_of_find?_text hasStop
  obtain ⟨q, done, _⟩ := m.put_ok p c
  unfold site
  rw [bind_ok (require_found hasArea), bind_ok (require_found hasStop)]
  simp only [boards, Bool.not_true, Bool.false_eq_true, ↓reduceIte]
  rw [areaId, stopId]
  exact ⟨_, onSiting_ok done⟩

end Edit

/-- Every change of a registry that changes have led to succeeds, or refuses and leaves the
registry as it was. It refuses for a reason that the caller can see, and as no entity only
what is none. To nest an area succeeds exactly for two registered areas of types that may
hold each other, to site a stop point exactly for a registered one where passengers board. -/
theorem reachable_refusals {permitted : Action → Prop} {r : Registry}
    (reached : Reachable permitted r) :
    (∀ action : Action, (∃ s, action.edit r = .ok () s) ∨
      ∃ problem, action.edit r = .error problem r ∧
        (problem.IsRefusal ∨ action.IsForeign ∧ ∃ name, problem = .notAnEntity name)) ∧
    (∀ p c, (∃ s, (Action.nest p c).edit r = .ok () s) ↔
      ∃ parent child, MayHold r p c parent child) ∧
    (∀ p c, (∃ s, (Action.site p c).edit r = .ok () s) ↔
      ∃ area stop, r.stopAreas.find? (.text p) = some area ∧
        r.stopPoints.find? (.text c) = some stop ∧
        (area.areaType = .boardingPosition ∨ area.areaType = .quay)) := by
  obtain ⟨nesting, siting⟩ := reached.coherent
  have effects : ∀ {action : Action} {s : Registry}, action.edit r = .ok () s →
      Effect r action s := by
    intro action s done
    rcases action.edit_cases nesting siting with ⟨other, same, effect⟩ | ⟨_, thrown, _⟩
    · rw [done] at same
      cases same
      exact effect
    · rw [done] at thrown
      cases thrown
  refine ⟨fun action => ?_, fun p c => ⟨fun done => ?_, fun may => ?_⟩,
    fun p c => ⟨fun done => ?_, fun right => ?_⟩⟩
  · exact (action.edit_cases nesting siting).imp_left fun ⟨s, done, _⟩ => ⟨s, done⟩
  · obtain ⟨s, done⟩ := done
    cases effects done with
    | nest may => exact ⟨_, _, may⟩
    | nestInConstraint may => exact ⟨_, _, may⟩
  · obtain ⟨parent, child, may⟩ := may
    exact Edit.nest_ok nesting may
  · obtain ⟨s, done⟩ := done
    cases effects done with
    | site hasArea hasStop boards =>
      exact ⟨_, _, hasArea, hasStop, AreaType.holdsStopPoints_iff.mp boards⟩
  · obtain ⟨area, stop, hasArea, hasStop, right⟩ := right
    exact Edit.site_ok siting hasArea hasStop (AreaType.holdsStopPoints_iff.mpr right)

/-- After a taking over, an area does not get into itself and can still be listed. -/
theorem reachable_refusals_takenOver :
    (∃ problem, (Action.nest (.whole "B") (.whole "B")).edit (perform takenOver {}) =
        .error problem (perform takenOver {}) ∧ problem.IsRefusal) ∧
    ∃ s, (Action.nest (.whole "A") (.whole "C")).edit (perform takenOver {}) = .ok () s := by
  have reached : Reachable (fun _ => True) (perform takenOver {}) :=
    Reachable.empty.perform fun _ _ => trivial
  obtain ⟨ends, nests, _⟩ := reachable_refusals reached
  constructor
  · rcases ends (.nest (.whole "B") (.whole "B")) with done | ⟨problem, thrown, refusal | foreign⟩
    · obtain ⟨_, _, may⟩ := (nests _ _).mp done
      exact absurd rfl may.apart
    · exact ⟨problem, thrown, refusal⟩
    · exact foreign.1.elim
  · exact (nests _ _).mpr ⟨_, _, rfl, rfl, by decide, by decide⟩

end LineClosure
