import LineClosure.Proofs.Registry.RosterContents
import LineClosure.Registry.Query
import Mathlib.Logic.Relation

/-! The lineage of a stop area: the area, what it lies in, what that lies in, and so on. Stop
places may lie inside each other in a circle, so a lineage is cut at the first area that it
has met before. A lineage is closed: it holds all that its areas lie in and nothing else. -/

namespace LineClosure.Registry

def LiesIn (r : Registry) (area parent : StopArea) : Prop := r.parent? area.id = some parent

theorem registered_of_parent? {r : Registry} {areaId : Id} {parent : StopArea}
    (found : r.parent? areaId = some parent) : parent ∈ r.stopAreas.members := by
  obtain ⟨holder, _, registered⟩ := Option.bind_eq_some_iff.mp found
  exact Roster.mem_of_find? registered

theorem registered_of_areaOf? {r : Registry} {stopPointId : Id} {area : StopArea}
    (found : r.areaOf? stopPointId = some area) : area ∈ r.stopAreas.members := by
  obtain ⟨holder, _, registered⟩ := Option.bind_eq_some_iff.mp found
  exact Roster.mem_of_find? registered

def unmet (r : Registry) (met : List Id) : Nat :=
  r.stopAreas.members.countP fun a => identity a ∉ met

theorem unmet_le_size (r : Registry) (met : List Id) : r.unmet met ≤ r.stopAreas.size :=
  List.countP_le_length

theorem unmet_lt {r : Registry} {met later : List Id} {area : StopArea}
    (registered : area ∈ r.stopAreas.members) (before : identity area ∉ met)
    (after : identity area ∈ later) (kept : ∀ id ∈ met, id ∈ later) :
    r.unmet later < r.unmet met := by
  obtain ⟨front, back, split⟩ := List.append_of_mem registered
  have fewer : ∀ areas : List StopArea,
      areas.countP (fun a => identity a ∉ later) ≤ areas.countP (fun a => identity a ∉ met) := by
    intro areas
    refine List.countP_mono_left fun a _ absent => ?_
    simp only [decide_eq_true_eq] at absent ⊢
    exact fun present => absent (kept _ present)
  have atFront := fewer front
  have atBack := fewer back
  simp only [unmet, split, List.countP_append, List.countP_cons, after, before, not_true_eq_false,
    not_false_eq_true, decide_true, decide_false, Bool.false_eq_true, ↓reduceIte]
  omega

/-- What an area lies in, upwards, as far as the first area that was met before. -/
def ancestorsFrom (r : Registry) (met : List Id) (areaId : Id) : List StopArea :=
  match _found : r.parent? areaId with
  | none => []
  | some parent =>
    if _known : identity parent ∈ met then []
    else parent :: r.ancestorsFrom (identity parent :: met) parent.id
termination_by r.unmet met
decreasing_by
  exact unmet_lt (registered_of_parent? _found) _known List.mem_cons_self
    fun _ present => List.mem_cons_of_mem _ present

def lineage (r : Registry) (area : StopArea) : List StopArea :=
  area :: r.ancestorsFrom [identity area] area.id

theorem ancestorsFrom_of_none {r : Registry} {met : List Id} {areaId : Id}
    (top : r.parent? areaId = none) : r.ancestorsFrom met areaId = [] := by
  rw [ancestorsFrom]
  split
  · rfl
  · next found => exact absurd (top.symm.trans found) (by simp)

theorem ancestorsFrom_of_met {r : Registry} {met : List Id} {areaId : Id} {parent : StopArea}
    (found : r.parent? areaId = some parent) (known : identity parent ∈ met) :
    r.ancestorsFrom met areaId = [] := by
  rw [ancestorsFrom]
  split
  · rfl
  · next other same =>
    rw [Option.some.inj (same.symm.trans found)]
    exact dif_pos known

theorem ancestorsFrom_of_unmet {r : Registry} {met : List Id} {areaId : Id} {parent : StopArea}
    (found : r.parent? areaId = some parent) (unknown : identity parent ∉ met) :
    r.ancestorsFrom met areaId =
      parent :: r.ancestorsFrom (identity parent :: met) parent.id := by
  rw [ancestorsFrom]
  split
  · next top => exact absurd (top.symm.trans found) (by simp)
  · next other same =>
    rw [Option.some.inj (same.symm.trans found)]
    exact dif_neg unknown

theorem ancestorsFrom_closed {r : Registry} (met : List Id) (areaId : Id) :
    (∀ parent, r.parent? areaId = some parent →
      parent ∈ r.ancestorsFrom met areaId ∨ identity parent ∈ met) ∧
    ∀ a ∈ r.ancestorsFrom met areaId, ∀ parent, r.LiesIn a parent →
      parent ∈ r.ancestorsFrom met areaId ∨ identity parent ∈ met := by
  induction met, areaId using ancestorsFrom.induct r with
  | case1 met areaId top =>
    rw [ancestorsFrom_of_none top, top]
    simp
  | case2 met areaId parent found known =>
    rw [ancestorsFrom_of_met found known, found]
    refine ⟨fun other same => Or.inr (Option.some.inj same ▸ known), by simp⟩
  | case3 met areaId parent found unknown ih =>
    rw [ancestorsFrom_of_unmet found unknown, found]
    -- what was met before the parent is met here too, and the parent itself comes first
    have onward : ∀ next ∈ r.stopAreas.members,
        (next ∈ r.ancestorsFrom (identity parent :: met) parent.id ∨
          identity next ∈ identity parent :: met) →
        next ∈ parent :: r.ancestorsFrom (identity parent :: met) parent.id ∨
          identity next ∈ met := by
      intro next registered either
      rcases either with above | known
      · exact Or.inl (List.mem_cons_of_mem parent above)
      · rcases List.mem_cons.mp known with same | earlier
        · have equal := Roster.eq_of_identity registered (registered_of_parent? found) same
          exact Or.inl (equal ▸ List.mem_cons_self)
        · exact Or.inr earlier
    constructor
    · intro other same
      exact Or.inl (Option.some.inj same ▸ List.mem_cons_self)
    · intro a member next link
      have registered := registered_of_parent? link
      rcases List.mem_cons.mp member with rfl | above
      · exact onward next registered (ih.1 next link)
      · exact onward next registered (ih.2 a above next link)

theorem reaches_of_mem_ancestorsFrom {r : Registry} (met : List Id) (areaId : Id) :
    ∀ a ∈ r.ancestorsFrom met areaId, ∃ parent, r.parent? areaId = some parent ∧
      Relation.ReflTransGen r.LiesIn parent a := by
  induction met, areaId using ancestorsFrom.induct r with
  | case1 met areaId top =>
    rw [ancestorsFrom_of_none top]
    simp
  | case2 met areaId parent found known =>
    rw [ancestorsFrom_of_met found known]
    simp
  | case3 met areaId parent found unknown ih =>
    rw [ancestorsFrom_of_unmet found unknown]
    intro a member
    refine ⟨parent, found, ?_⟩
    rcases List.mem_cons.mp member with rfl | above
    · exact .refl
    · obtain ⟨next, link, path⟩ := ih a above
      exact path.head link

theorem mem_lineage_iff {r : Registry} {area a : StopArea}
    (registered : area ∈ r.stopAreas.members) :
    a ∈ r.lineage area ↔ Relation.ReflTransGen r.LiesIn area a := by
  have closed := ancestorsFrom_closed (r := r) [identity area] area.id
  have inside : ∀ next, r.parent? area.id = some next ∨
      (∃ a ∈ r.ancestorsFrom [identity area] area.id, r.LiesIn a next) →
      next ∈ r.lineage area := by
    intro next link
    have known : next ∈ r.stopAreas.members ∧
        (next ∈ r.ancestorsFrom [identity area] area.id ∨ identity next ∈ [identity area]) := by
      rcases link with first | ⟨a, member, later⟩
      · exact ⟨registered_of_parent? first, closed.1 next first⟩
      · exact ⟨registered_of_parent? later, closed.2 a member next later⟩
    rcases known.2 with above | back
    · exact List.mem_cons_of_mem area above
    · have equal := Roster.eq_of_identity known.1 registered (List.mem_singleton.mp back)
      exact equal ▸ List.mem_cons_self
  constructor
  · intro member
    rcases List.mem_cons.mp member with rfl | above
    · exact .refl
    · obtain ⟨parent, link, path⟩ := reaches_of_mem_ancestorsFrom _ _ a above
      exact path.head link
  · intro path
    induction path with
    | refl => exact List.mem_cons_self
    | tail _ link ih =>
      rcases List.mem_cons.mp ih with rfl | above
      · exact inside _ (Or.inl link)
      · exact inside _ (Or.inr ⟨_, above, link⟩)

end LineClosure.Registry
