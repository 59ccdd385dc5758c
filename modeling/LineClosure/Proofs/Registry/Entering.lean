import LineClosure.Registry.Entity
import LineClosure.Proofs.Registry.RosterContents
import Mathlib.Data.Finset.Dedup
import Mathlib.Data.Finset.Card

/-! Rosters that grow, one item or one list at a time. Whatever the calls, the roster is what
its items make in the order in which they came: each identifier once, where it came first and
with the item that came first. Later items of an identifier leave no trace. -/

namespace LineClosure

open Keyed

namespace Roster

variable {α : Type} [Keyed α]

inductive Call (α : Type) where
  | add (a : α)
  | update (items : List α)

def Call.items : Call α → List α
  | add a => [a]
  | update items => items

def perform (r : Roster α) : Call α → Roster α × Option Bool
  | .add a => (r.insert a, some !r.contains (key a))
  | .update items => (r.insertAll items, none)

def performAll (r : Roster α) : List (Call α) → Roster α × List (Option Bool)
  | [] => (r, [])
  | call :: rest =>
    let later := (r.perform call).1.performAll rest
    (later.1, (r.perform call).2 :: later.2)

/-- Whether something is in the roster, be it a record of this kind or of another. What is no
record at all is looked for as if it had the identifier `null`. -/
def holds {β : Type} [Keyed β] (r : Roster α) (x : Option β) : Bool :=
  r.contains ((x.map key).getD .null)

/-! ## What the calls come to -/

theorem perform_fst (r : Roster α) (call : Call α) :
    (r.perform call).1 = r.insertAll call.items := by
  cases call <;> rfl

theorem performAll_fst (r : Roster α) (calls : List (Call α)) :
    (r.performAll calls).1 = r.insertAll (calls.flatMap Call.items) := by
  induction calls generalizing r with
  | nil => rfl
  | cons call rest ih =>
    rw [List.flatMap_cons, insertAll_append, ← perform_fst]
    exact ih _

theorem performAll_append (r : Roster α) (calls more : List (Call α)) :
    r.performAll (calls ++ more) =
      (((r.performAll calls).1.performAll more).1,
        (r.performAll calls).2 ++ ((r.performAll calls).1.performAll more).2) := by
  induction calls generalizing r with
  | nil => rfl
  | cons call rest ih =>
    simp only [List.cons_append, performAll, ih]

theorem length_performAll (r : Roster α) (calls : List (Call α)) :
    (r.performAll calls).2.length = calls.length := by
  induction calls generalizing r with
  | nil => rfl
  | cons call rest ih => exact congrArg (· + 1) (ih _)

theorem told_add (r : Roster α) (before after : List (Call α)) (a : α) :
    (r.performAll (before ++ .add a :: after)).2[before.length]? =
      some (some !(r.insertAll (before.flatMap Call.items)).contains (key a)) := by
  rw [performAll_append, performAll_fst r before, ← length_performAll r before,
    List.getElem?_append_right (Nat.le_refl _), Nat.sub_self]
  rfl

theorem find?_insertAll (r : Roster α) (items : List α) (id : Id) :
    (r.insertAll items).find? id =
      (r.find? id).or (items.find? fun a => identity a = canonical id) := by
  induction items generalizing r with
  | nil => rw [insertAll_nil, List.find?_nil, Option.or_none]
  | cons a rest ih =>
    rw [insertAll_cons, ih, find?_insert, Option.or_assoc, List.find?_cons]
    by_cases same : identity a = canonical id
    · simp [same]
    · simp [same]

/-! ## Texts for identifiers -/

def Textual (items : List α) : Prop := ∀ a ∈ items, ∃ t, key a = .text t

theorem Textual.identity_eq_iff {items : List α} (textual : Textual items) {a : α}
    (given : a ∈ items) (id : Id) : identity a = canonical id ↔ key a = id := by
  obtain ⟨t, named⟩ := textual a given
  rw [identity, named, canonical_text, eq_comm, canonical_eq_text_iff, eq_comm]

theorem Textual.of_subset {items more : List α} (textual : Textual more) (within : items ⊆ more) :
    Textual items :=
  fun a given => textual a (within given)

theorem map_key_firsts (items : List α) (textual : Textual items) :
    (firsts items).map key = (items.map key).eraseDups := by
  match items with
  | [] => rfl
  | a :: rest =>
    have others : ∀ b ∈ rest, decide (identity b ≠ identity a) = !(key b == key a) := by
      intro b given
      have same := textual.identity_eq_iff (List.mem_cons_of_mem a given) (key a)
      rw [Bool.eq_iff_iff]
      simp only [decide_eq_true_eq, Bool.not_eq_true', beq_eq_false_iff_ne, ne_eq]
      exact not_congr same
    have later := map_key_firsts (rest.filter fun b => !(key b == key a))
      (textual.of_subset fun b given => List.mem_cons_of_mem a (List.mem_filter.mp given).1)
    rw [firsts, ← firsts_filter, List.filter_congr others, List.map_cons, later, List.map_cons,
      List.eraseDups_cons, List.filter_map]
    · rfl
    · intro b _ c _ same
      rw [same]
termination_by items.length
decreasing_by exact Nat.lt_succ_of_le (List.length_filter_le _ _)

theorem Textual.find?_identity {items : List α} (textual : Textual items) (id : Id) :
    (items.find? fun a => identity a = canonical id) = items.find? fun a => key a = id := by
  induction items with
  | nil => rfl
  | cons a rest ih =>
    have later := ih (textual.of_subset (List.subset_cons_self a rest))
    simp only [List.find?_cons, later, textual.identity_eq_iff List.mem_cons_self]

/-! ## First come -/

variable {items : List α} {id : Id}

theorem ofList_performAll (items : List α) (calls : List (Call α)) :
    ((ofList items).performAll calls).1 =
      (∅ : Roster α).insertAll (items ++ calls.flatMap Call.items) := by
  rw [performAll_fst, insertAll_append]
  rfl

theorem ids_of_textual (textual : Textual items) :
    ((∅ : Roster α).insertAll items).ids = (items.map key).eraseDups := by
  rw [ids, members_insertAll_empty, map_key_firsts items textual]

theorem size_of_textual (textual : Textual items) :
    ((∅ : Roster α).insertAll items).size = (items.map key).toFinset.card := by
  have once := ids_nodup ((∅ : Roster α).insertAll items)
  rw [ids_of_textual textual] at once
  calc
    ((∅ : Roster α).insertAll items).size = ((∅ : Roster α).insertAll items).ids.length :=
      (List.length_map key).symm
    _ = (items.map key).eraseDups.toFinset.card := by
      rw [ids_of_textual textual, List.toFinset_card_of_nodup once]
    _ = (items.map key).toFinset.card := by
      congr 1
      ext id
      simp only [List.mem_toFinset, List.mem_eraseDups]

theorem find?_of_textual (textual : Textual items) :
    ((∅ : Roster α).insertAll items).find? id = items.find? fun a => key a = id := by
  rw [find?_insertAll, textual.find?_identity]
  exact Option.none_or

theorem contains_of_textual (textual : Textual items) :
    ((∅ : Roster α).insertAll items).contains id = true ↔ id ∈ items.map key := by
  rw [contains_eq_isSome, find?_of_textual textual, List.find?_isSome, List.mem_map]
  simp only [decide_eq_true_eq]

theorem holds_of_textual {β : Type} [Keyed β] (textual : Textual items) (x : Option β) :
    ((∅ : Roster α).insertAll items).holds x = true ↔ ∃ b, x = some b ∧ key b ∈ items.map key := by
  rw [holds, contains_of_textual textual]
  cases x with
  | some b => simp
  | none =>
    have nothing : Scalar.null ∉ items.map key := by
      intro named
      obtain ⟨a, given, null⟩ := List.mem_map.mp named
      obtain ⟨t, text⟩ := textual a given
      cases null.symm.trans text
    simp [nothing]

/-- Whatever calls a roster gets after its first items, it holds of every identifier what came
first with it, in the order in which the identifiers came. A single item is told that it is new
if and only if no item before it has its identifier. -/
theorem performAll_firstCome (items : List α) (calls : List (Call α))
    (textual : Textual (items ++ calls.flatMap Call.items)) :
    let given := items ++ calls.flatMap Call.items
    let (set, answers) := (ofList items).performAll calls
    set.ids = (given.map key).eraseDups ∧
    (∀ id, set.find? id = given.find? fun a => key a = id) ∧
    (∀ a ∈ set.members, given.find? (fun b => key b = key a) = some a) ∧
    set.size = (given.map key).toFinset.card ∧
    (∀ (β : Type) [Keyed β] (x : Option β),
      set.holds x = true ↔ ∃ b, x = some b ∧ key b ∈ given.map key) ∧
    ∀ before a after, calls = before ++ .add a :: after →
      ∃ new : Bool, answers[before.length]? = some (some new) ∧
        (new = true ↔ key a ∉ (items ++ before.flatMap Call.items).map key) := by
  intro given
  have whole : ((ofList items).performAll calls).1 = (∅ : Roster α).insertAll given :=
    ofList_performAll items calls
  simp only [whole]
  refine ⟨ids_of_textual textual, fun _ => find?_of_textual textual, ?_, ?_,
    fun _ _ => holds_of_textual textual, ?_⟩
  · intro a member
    rw [← find?_of_textual textual]
    exact find?_eq_some_iff.mpr ⟨member, rfl⟩
  · exact size_of_textual textual
  · rintro before a after rfl
    have earlier : Textual (items ++ before.flatMap Call.items) := by
      apply textual.of_subset
      simp
    refine ⟨_, told_add _ before after a, ?_⟩
    rw [ofList, ← insertAll_append]
    rw [Bool.not_eq_true', Bool.eq_false_iff]
    exact not_congr (contains_of_textual earlier)

def rivals : List Company :=
  [{ id := .text "tram", name := .text "Tram" }, { id := .text "bus", name := .text "Bus" },
    { id := .text "tram", name := .text "Tramway" }]

/-- The first tram company stays, whether another one comes with a list or by itself. -/
theorem performAll_firstCome_rivals :
    let calls : List (Call Company) := [.update rivals, .add { id := .text "tram" }]
    Textual ([] ++ calls.flatMap Call.items) ∧
    ((ofList []).performAll calls).1.ids = [.text "tram", .text "bus"] ∧
    ((ofList []).performAll calls).1.find? (.text "tram") = rivals.head? := by
  intro calls
  have textual : Textual ([] ++ calls.flatMap Call.items) := by
    intro a given
    simp only [calls, List.nil_append, List.flatMap_cons, List.flatMap_nil, Call.items, rivals,
      List.append_nil, List.cons_append, List.mem_cons, List.not_mem_nil, or_false] at given
    rcases given with rfl | rfl | rfl | rfl <;> exact ⟨_, rfl⟩
  obtain ⟨ids, found, -⟩ := performAll_firstCome [] calls textual
  exact ⟨textual, ids.trans (by decide), (found _).trans (by rfl)⟩

end Roster
end LineClosure
