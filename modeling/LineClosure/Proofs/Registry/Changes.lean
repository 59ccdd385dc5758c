import LineClosure.Proofs.Registry.PlacementMoves
import LineClosure.Registry.Edit

/-! What a change does, whatever identifiers it is asked about. The equations run each change
past its look-ups and guards, refusals included; what a change that succeeded has done is
read off them. -/

namespace LineClosure

open Keyed

namespace Edit

variable {r s : Registry}

theorem require_run (α : Type) [Entity α] (reference : Reference) (r : Registry) :
    require α reference r =
      match r.lookUp (α := α) reference with
      | .ok a => .ok a r
      | .error problem => .error problem r := rfl

theorem enter_eq_ok_iff {α : Type} [Entity α] {a : α} :
    enter a r = .ok () s ↔
      (Entity.table (α := α) r).contains (key a) = false ∧
        s = Entity.withTable r ((Entity.table r).insert a) := by
  unfold enter
  rw [get_bind]
  cases taken : (Entity.table (α := α) r).contains (key a) with
  | true =>
    refine iff_of_false ?_ ?_
    · intro done
      simp only [↓reduceIte] at done
      cases done
    · intro both
      cases both.1
  | false =>
    simp only [Bool.false_eq_true, ↓reduceIte, true_and]
    constructor
    · intro done
      cases done
      rfl
    · rintro rfl
      rfl

theorem nest_run (parent child : Reference) (r : Registry) :
    nest parent child r =
      match r.lookUp (α := StopArea) parent, r.lookUp (α := StopArea) child with
      | .error problem, _ => .error problem r
      | .ok _, .error problem => .error problem r
      | .ok parent, .ok child =>
        if parent.id.equals child.id ∨ child.areaType ∉ parent.areaType.children then
          .error (.forbidden parent.areaType (.area child.areaType)
            parent.areaType.childRelation) r
        else if parent.areaType = .routingConstraint then
          .ok () { r with constrainedAreas := r.constrainedAreas.attach parent.id child.id }
        else onNesting (Placement.put parent.id child.id) r := by
  unfold nest
  cases first : r.lookUp (α := StopArea) parent with
  | error problem => exact bind_error (by rw [require_run, first])
  | ok holder =>
    rw [bind_ok (by rw [require_run, first])]
    cases second : r.lookUp (α := StopArea) child with
    | error problem => exact bind_error (by rw [require_run, second])
    | ok item =>
      rw [bind_ok (by rw [require_run, second])]
      dsimp only
      split
      · rfl
      · split <;> rfl

theorem constrainArea_run (constraint child : Reference) (r : Registry) :
    constrainArea constraint child r =
      match r.lookUp (α := StopArea) constraint, r.lookUp (α := StopArea) child with
      | .error problem, _ => .error problem r
      | .ok _, .error problem => .error problem r
      | .ok area, .ok listed =>
        if area.areaType ≠ .routingConstraint then
          .error (.forbidden area.areaType (.area listed.areaType) .constrainedAreas) r
        else nest constraint child r := by
  unfold constrainArea
  cases first : r.lookUp (α := StopArea) constraint with
  | error problem => exact bind_error (by rw [require_run, first])
  | ok area =>
    rw [bind_ok (by rw [require_run, first])]
    cases second : r.lookUp (α := StopArea) child with
    | error problem => exact bind_error (by rw [require_run, second])
    | ok item =>
      rw [bind_ok (by rw [require_run, second])]
      dsimp only
      split <;> rfl

theorem site_run (area stopPoint : Reference) (r : Registry) :
    site area stopPoint r =
      match r.lookUp (α := StopArea) area, r.lookUp (α := StopPoint) stopPoint with
      | .error problem, _ => .error problem r
      | .ok _, .error problem => .error problem r
      | .ok area, .ok stop =>
        if area.areaType.holdsStopPoints then onSiting (Placement.put area.id stop.id) r
        else .error (.forbidden area.areaType .stopPoint .containedStopPoints) r := by
  unfold site
  cases first : r.lookUp (α := StopArea) area with
  | error problem => exact bind_error (by rw [require_run, first])
  | ok area =>
    rw [bind_ok (by rw [require_run, first])]
    cases second : r.lookUp (α := StopPoint) stopPoint with
    | error problem => exact bind_error (by rw [require_run, second])
    | ok stop =>
      rw [bind_ok (by rw [require_run, second])]
      dsimp only
      cases area.areaType.holdsStopPoints <;> rfl

theorem constrainLine_run (constraint line : Reference) (r : Registry) :
    constrainLine constraint line r =
      match r.lookUp (α := StopArea) constraint with
      | .error problem => .error problem r
      | .ok area =>
        if area.areaType ≠ .routingConstraint then
          .error (.forbidden area.areaType .line .constrainedLines) r
        else .ok () { r with constrainedLines := r.constrainedLines.attach area.id line } := by
  unfold constrainLine
  cases first : r.lookUp (α := StopArea) constraint with
  | error problem => exact bind_error (by rw [require_run, first])
  | ok area =>
    rw [bind_ok (by rw [require_run, first])]
    dsimp only
    split <;> rfl

theorem adopt_run {α : Type} [Entity α] (stamp : α → Nat) (a : α) (r : Registry) :
    adopt stamp a r =
      match (Entity.table (α := α) r).find? (key a) with
      | none => .ok () (Entity.withTable r ((Entity.table r).insert a))
      | some present =>
        if stamp present ≠ stamp a then .error (.duplicate (Entity.kind α) (key a)) r
        else .ok () r := by
  unfold adopt
  rw [get_bind]
  cases (Entity.table (α := α) r).find? (key a) with
  | none => rfl
  | some present =>
    by_cases other : stamp present ≠ stamp a
    · simp only [if_pos other]
      rfl
    · simp only [if_neg other]
      rfl

/-- To attach a record to an area looks up the area, and adopts the record before it is
attached. -/
theorem join_run {α : Type} [Entity α] (area : Reference) (stamp : α → Nat) (a : α)
    (attach : StopArea → Registry → Registry) (r : Registry) :
    (do
      let area ← require StopArea area
      adopt stamp a
      modify (attach area) : Edit Unit) r =
      match r.lookUp (α := StopArea) area with
      | .error problem => .error problem r
      | .ok area =>
        match adopt stamp a r with
        | .error problem s => .error problem s
        | .ok _ s => .ok () (attach area s) := by
  cases found : r.lookUp (α := StopArea) area with
  | error problem => exact bind_error (by rw [require_run, found])
  | ok area =>
    rw [bind_ok (by rw [require_run, found])]
    dsimp only
    cases adopted : adopt stamp a r with
    | error problem s => exact bind_error adopted
    | ok _ s => exact bind_ok adopted

def LinkEnd.attach (side : LinkEnd) (link : ConnectionLink) (area : StopArea) (r : Registry) :
    Registry :=
  match side with
  | .start => { r with connectionStarts := r.connectionStarts.attach area.id link.id }
  | .finish => { r with connectionEnds := r.connectionEnds.attach area.id link.id }

theorem joinConnection_eq (area : Reference) (link : ConnectionLink) (side : LinkEnd) :
    joinConnection area link side =
      (do
        let area ← require StopArea area
        adopt (·.stamp) link
        modify (side.attach link area)) := by
  cases side <;> rfl

end Edit
end LineClosure
