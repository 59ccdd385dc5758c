import LineClosure.Proofs.Registry.Queries
import LineClosure.Registry.Centroid

/-! What lies below a stop area. Every area is in the list of one other at most, so going down
from an area leads nowhere twice, but for the way back to that area itself. -/

namespace LineClosure.Registry

variable {r : Registry}

def Contains (r : Registry) (area child : StopArea) : Prop := child ∈ r.childAreas area.id

theorem registered_of_contains {area child : StopArea} (link : r.Contains area child) :
    child ∈ r.stopAreas.members := by
  obtain ⟨id, _, found⟩ := List.mem_filterMap.mp link
  exact Roster.mem_of_find? found

theorem ids_childAreas (coherent : r.Coherent) (anchored : r.Anchored) (id : Id) :
    (r.childAreas id).map (·.id) = r.nesting.row id := by
  have each : ∀ ids : List Id, ids ⊆ r.nesting.row id →
      (r.entities ids : List StopArea).map (·.id) = ids := by
    intro ids listed
    induction ids with
    | nil => rfl
    | cons child rest ih =>
      have here : child ∈ r.nesting.row id := listed List.mem_cons_self
      obtain ⟨area, found, _⟩ := lookUp_of_has (anchored.nesting.right id child here).2
      obtain ⟨_, t, _, rfl⟩ := coherent.nesting.textual id child here
      have named : area.id = .text t := Roster.key_of_find?_text found
      have later := ih fun other there => listed (List.mem_cons_of_mem _ there)
      rw [entities] at later ⊢
      rw [List.filterMap_cons_some found, List.map_cons, named, later]
  exact each _ (List.Subset.refl _)

theorem mem_row_of_contains (coherent : r.Coherent) (anchored : r.Anchored)
    {area child : StopArea} (link : r.Contains area child) :
    child.id ∈ r.nesting.row area.id := by
  rw [← ids_childAreas coherent anchored]
  exact List.mem_map_of_mem link

theorem contains_iff_liesIn (coherent : r.Coherent) (anchored : r.Anchored)
    {area child : StopArea} (outer : area ∈ r.stopAreas.members)
    (inner : child ∈ r.stopAreas.members) : r.Contains area child ↔ r.LiesIn child area := by
  constructor
  · intro link
    have listed := mem_row_of_contains coherent anchored link
    rw [LiesIn, coherent.parent?_eq, (coherent.nesting.inverse _ _).mpr listed, Option.bind_some]
    exact Roster.find?_eq_some_iff.mpr ⟨outer, rfl⟩
  · intro link
    obtain ⟨holder, held, found⟩ := Option.bind_eq_some_iff.mp link
    have listed := (coherent.nesting.inverse _ _).mp (Placement.noted_of_holder? held)
    obtain ⟨h, _, rfl, _⟩ := coherent.nesting.textual _ _ listed
    have named : area.id = .text h := Roster.key_of_find?_text found
    show child ∈ r.entities _
    rw [named]
    exact List.mem_filterMap.mpr ⟨child.id, listed, Roster.find?_eq_some_iff.mpr ⟨inner, rfl⟩⟩

theorem transGen_contains_iff (coherent : r.Coherent) (anchored : r.Anchored) {area : StopArea}
    (registered : area ∈ r.stopAreas.members) :
    Relation.TransGen r.Contains area area ↔ Relation.TransGen r.LiesIn area area := by
  have upwards : ∀ {below : StopArea}, Relation.TransGen r.Contains area below →
      below ∈ r.stopAreas.members ∧ Relation.TransGen r.LiesIn below area := by
    intro below path
    induction path with
    | single link =>
      have inner := registered_of_contains link
      exact ⟨inner, .single ((contains_iff_liesIn coherent anchored registered inner).mp link)⟩
    | tail _ link ih =>
      have inner := registered_of_contains link
      exact ⟨inner, .head ((contains_iff_liesIn coherent anchored ih.1 inner).mp link) ih.2⟩
  have downwards : ∀ {above : StopArea}, Relation.TransGen r.LiesIn area above →
      above ∈ r.stopAreas.members ∧ Relation.TransGen r.Contains above area := by
    intro above path
    induction path with
    | single link =>
      have outer := registered_of_parent? link
      exact ⟨outer, .single ((contains_iff_liesIn coherent anchored outer registered).mpr link)⟩
    | tail _ link ih =>
      have outer := registered_of_parent? link
      exact ⟨outer, .head ((contains_iff_liesIn coherent anchored outer ih.1).mpr link) ih.2⟩
  exact ⟨fun round => (upwards round).2, fun round => (downwards round).2⟩

/-! ## Below a root -/

/-- One area lists the other, which is not where the way down began. -/
def Leads (r : Registry) (root id child : Id) : Prop :=
  child ∈ r.nesting.row id ∧ child ≠ root

abbrev Below (r : Registry) (root : Id) : Id → Id → Prop := Relation.ReflTransGen (r.Leads root)

theorem leads_unique (m : r.nesting.Mutual) {root first second child : Id}
    (one : r.Leads root first child) (other : r.Leads root second child) : first = second :=
  m.holder_unique one.1 other.1

/-- The way down from the root never comes back to an area. -/
theorem not_transGen_leads (m : r.nesting.Mutual) {root id : Id} (below : r.Below root root id) :
    ¬Relation.TransGen (r.Leads root) id id := by
  -- A way round an area also goes round the one before it, and so back to the root.
  induction below with
  | refl =>
    intro round
    obtain ⟨_, _, last⟩ := Relation.TransGen.tail'_iff.mp round
    exact last.2 rfl
  | tail _ link ih =>
    intro round
    obtain ⟨before, path, last⟩ := Relation.TransGen.tail'_iff.mp round
    obtain rfl := leads_unique m last link
    exact ih (Relation.TransGen.head' link path)

theorem below_total (m : r.nesting.Mutual) {root first second id : Id}
    (one : r.Below root first id) (other : r.Below root second id) :
    r.Below root first second ∨ r.Below root second first := by
  have unique : Relator.RightUnique (Function.swap (r.Leads root)) :=
    fun _ _ _ one other => leads_unique m one other
  have either := Relation.ReflTransGen.total_of_right_unique unique
    (Relation.reflTransGen_swap.mpr one) (Relation.reflTransGen_swap.mpr other)
  exact (either.imp Relation.reflTransGen_swap.mp Relation.reflTransGen_swap.mp).symm

theorem below_apart (m : r.nesting.Mutual) {root id first second : Id}
    (within : r.Below root root id) (one : r.Leads root id first) (other : r.Leads root id second)
    (differ : first ≠ second) {below : Id} (first_above : r.Below root first below)
    (second_above : r.Below root second below) : False := by
  have apart : ∀ {child sibling : Id}, r.Leads root id child → r.Leads root id sibling →
      child ≠ sibling → ¬r.Below root child sibling := by
    intro child sibling one other differ path
    rcases Relation.ReflTransGen.cases_tail path with same | ⟨before, path, last⟩
    · exact differ same.symm
    · obtain rfl := leads_unique m last other
      exact not_transGen_leads m within (Relation.TransGen.head' one path)
  rcases below_total m first_above second_above with down | down
  · exact apart one other differ down
  · exact apart other one differ.symm down

end LineClosure.Registry
