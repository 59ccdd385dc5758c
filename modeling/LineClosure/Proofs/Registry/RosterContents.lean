import LineClosure.Registry.Roster
import Mathlib.Data.List.Nodup

/-! What a roster holds after each of its operations, said by look-up and by its members.
Entering a whole list keeps the first record of every identifier, which `firsts` says
without a roster. -/

namespace LineClosure

open Keyed

/-- The items in order, without those whose identifier was met before. -/
def firsts {α : Type} [Keyed α] : List α → List α
  | [] => []
  | a :: rest => a :: (firsts rest).filter fun b => identity b ≠ identity a

theorem mem_of_mem_firsts {α : Type} [Keyed α] {items : List α} {a : α}
    (found : a ∈ firsts items) : a ∈ items := by
  induction items with
  | nil => exact found
  | cons first rest ih =>
    rcases List.mem_cons.mp found with same | later
    · exact same ▸ List.mem_cons_self
    · exact List.mem_cons_of_mem first (ih (List.mem_filter.mp later).1)

theorem identity_mem_firsts {α : Type} [Keyed α] {items : List α} {a : α} (given : a ∈ items) :
    ∃ b ∈ firsts items, identity b = identity a := by
  induction items with
  | nil => cases given
  | cons first rest ih =>
    by_cases taken : identity a = identity first
    · exact ⟨first, List.mem_cons_self, taken.symm⟩
    · have later : a ∈ rest := by
        refine (List.mem_cons.mp given).resolve_left ?_
        intro same
        exact taken (congrArg identity same)
      obtain ⟨b, kept, same⟩ := ih later
      refine ⟨b, List.mem_cons_of_mem first (List.mem_filter.mpr ⟨kept, ?_⟩), same⟩
      simpa [same] using taken

/-- If equal identifiers mean equal records, nothing gets lost. -/
theorem mem_firsts_iff {α : Type} [Keyed α] {items : List α}
    (distinct : ∀ a ∈ items, ∀ b ∈ items, identity a = identity b → a = b) {a : α} :
    a ∈ firsts items ↔ a ∈ items := by
  refine ⟨mem_of_mem_firsts, fun given => ?_⟩
  obtain ⟨b, kept, same⟩ := identity_mem_firsts given
  exact distinct b (mem_of_mem_firsts kept) a given same ▸ kept

theorem firsts_of_nodup {α : Type} [Keyed α] {items : List α}
    (once : (items.map identity).Nodup) : firsts items = items := by
  induction items with
  | nil => rfl
  | cons a rest ih =>
    obtain ⟨new, later⟩ := List.nodup_cons.mp once
    rw [firsts, ih later, List.filter_eq_self.mpr]
    intro b listed
    exact decide_eq_true fun alike => new (alike ▸ List.mem_map_of_mem listed)

theorem firsts_append {α : Type} [Keyed α] {items more : List α}
    (once : (more.map identity).Nodup)
    (apart : ∀ a ∈ items, ∀ b ∈ more, identity b ≠ identity a) :
    firsts (items ++ more) = firsts items ++ more := by
  induction items with
  | nil => exact firsts_of_nodup once
  | cons a rest ih =>
    have later := ih fun b listed => apart b (List.mem_cons_of_mem a listed)
    have others : (more.filter fun b => identity b ≠ identity a) = more :=
      List.filter_eq_self.mpr fun b listed =>
        decide_eq_true (apart a List.mem_cons_self b listed)
    calc
      firsts (a :: (rest ++ more)) =
          a :: (firsts rest ++ more).filter fun b => identity b ≠ identity a := by
        rw [firsts, later]
      _ = firsts (a :: rest) ++ more := by
        rw [List.filter_append, others]
        rfl

theorem firsts_filter {α : Type} [Keyed α] {items : List α} {kept : α → Bool}
    (same : ∀ a ∈ items, ∀ b ∈ items, identity a = identity b → kept a = kept b) :
    firsts (items.filter kept) = (firsts items).filter kept := by
  induction items with
  | nil => rfl
  | cons a rest ih =>
    have later := ih fun b listed c other =>
      same b (List.mem_cons_of_mem a listed) c (List.mem_cons_of_mem a other)
    cases chosen : kept a with
    | true =>
      rw [List.filter_cons_of_pos chosen, firsts, later, firsts, List.filter_cons_of_pos chosen,
        List.filter_filter, List.filter_filter]
      simp only [Bool.and_comm]
    | false =>
      have dropped : ¬kept a = true := Bool.eq_false_iff.mp chosen
      rw [List.filter_cons_of_neg dropped, later, firsts, List.filter_cons_of_neg dropped,
        List.filter_filter]
      refine List.filter_congr fun b found => ?_
      cases shown : kept b with
      | false => rfl
      | true =>
        have differ : identity b ≠ identity a := by
          intro alike
          have other := List.mem_cons_of_mem a (mem_of_mem_firsts found)
          rw [← same b other a List.mem_cons_self alike] at dropped
          exact dropped shown
        simp only [differ, ne_eq, not_false_eq_true, decide_true, Bool.and_true]

namespace Roster

variable {α : Type} [Keyed α]

theorem eq_of_identity {r : Roster α} {a b : α} (first : a ∈ r.members) (second : b ∈ r.members)
    (same : identity a = identity b) : a = b :=
  List.inj_on_of_nodup_map r.distinct first second same

theorem find?_eq_some_iff {r : Roster α} {id : Id} {a : α} :
    r.find? id = some a ↔ a ∈ r.members ∧ identity a = canonical id := by
  constructor
  · intro found
    exact ⟨mem_of_find? found, identity_of_find? found⟩
  · intro both
    obtain ⟨member, same⟩ := both
    cases found : r.find? id with
    | none => exact absurd same (by simpa using List.find?_eq_none.mp found a member)
    | some b =>
      have agree := (identity_of_find? found).trans same.symm
      rw [eq_of_identity (mem_of_find? found) member agree]

theorem contains_eq_isSome (r : Roster α) (id : Id) : r.contains id = (r.find? id).isSome := by
  rw [Bool.eq_iff_iff, contains_iff]
  simp [find?, List.find?_isSome]

theorem contains_key_iff {r : Roster α} {a : α} :
    r.contains (key a) = true ↔ identity a ∈ r.identities :=
  List.contains_iff_mem

/-! ## Entering -/

theorem insert_of_mem {r : Roster α} {a : α} (taken : identity a ∈ r.identities) :
    r.insert a = r :=
  dif_pos taken

theorem members_insert (r : Roster α) (a : α) :
    (r.insert a).members = if identity a ∈ r.identities then r.members else r.members ++ [a] := by
  unfold insert
  split <;> rfl

theorem find?_insert (r : Roster α) (a : α) (id : Id) :
    (r.insert a).find? id =
      (r.find? id).or (if identity a = canonical id then some a else none) := by
  by_cases taken : identity a ∈ r.identities
  · rw [insert_of_mem taken]
    cases found : r.find? id with
    | some b => rfl
    | none =>
      obtain ⟨b, member, same⟩ := List.mem_map.mp taken
      have differ : identity b ≠ canonical id := by
        simpa using List.find?_eq_none.mp found b member
      rw [Option.none_or, if_neg (same ▸ differ)]
  · simp only [find?, members_insert, if_neg taken, List.find?_append, List.find?_singleton,
      decide_eq_true_eq]

@[simp] theorem insertAll_nil (r : Roster α) : r.insertAll [] = r := rfl

@[simp] theorem insertAll_cons (r : Roster α) (a : α) (items : List α) :
    r.insertAll (a :: items) = (r.insert a).insertAll items := rfl

@[simp] theorem insertAll_append (r : Roster α) (items more : List α) :
    r.insertAll (items ++ more) = (r.insertAll items).insertAll more :=
  List.foldl_append

theorem insertAll_of_forall_mem {r : Roster α} {items : List α}
    (taken : ∀ a ∈ items, identity a ∈ r.identities) : r.insertAll items = r := by
  induction items with
  | nil => rfl
  | cons a rest ih =>
    rw [insertAll_cons, insert_of_mem (taken a List.mem_cons_self)]
    exact ih fun b later => taken b (List.mem_cons_of_mem a later)

theorem members_insertAll (r : Roster α) (items : List α) :
    (r.insertAll items).members =
      r.members ++ (firsts items).filter fun a => identity a ∉ r.identities := by
  induction items generalizing r with
  | nil => simp [firsts]
  | cons a rest ih =>
    rw [insertAll_cons, ih, members_insert, identities_insert]
    by_cases taken : identity a ∈ r.identities
    · simp only [firsts, List.filter_cons, taken, not_true_eq_false, decide_false,
        Bool.false_eq_true, ↓reduceIte, List.filter_filter]
      congr 1
      refine List.filter_congr fun b _ => ?_
      by_cases same : identity b = identity a <;> simp [same, taken]
    · simp only [firsts, List.filter_cons, taken, not_false_eq_true, decide_true,
        ↓reduceIte, List.filter_filter, List.append_assoc, List.cons_append, List.nil_append]
      congr 2
      refine List.filter_congr fun b _ => ?_
      simp [not_or]

theorem members_insertAll_empty (items : List α) :
    ((∅ : Roster α).insertAll items).members = firsts items := by
  rw [members_insertAll]
  change [] ++ (firsts items).filter (fun a => identity a ∉ ([] : List Id)) = firsts items
  simp

theorem mem_identities_insert {r : Roster α} {a : α} {id : Id} :
    id ∈ (r.insert a).identities ↔ id ∈ r.identities ∨ identity a = id := by
  rw [identities_insert]
  split
  · next taken =>
    constructor
    · exact Or.inl
    · intro either
      rcases either with old | rfl
      · exact old
      · exact taken
  · rw [List.mem_append, List.mem_singleton, eq_comm (a := id)]

theorem mem_identities_insertAll {r : Roster α} {items : List α} {id : Id} :
    id ∈ (r.insertAll items).identities ↔ id ∈ r.identities ∨ ∃ a ∈ items, identity a = id := by
  induction items generalizing r with
  | nil => simp
  | cons a rest ih =>
    rw [insertAll_cons, ih, mem_identities_insert, or_assoc]
    simp only [List.mem_cons, exists_eq_or_imp]

theorem identities_insertAll_of_mem {r : Roster α} {id : Id} (old : id ∈ r.identities)
    (items : List α) : id ∈ (r.insertAll items).identities :=
  mem_identities_insertAll.mpr (Or.inl old)

theorem identities_insertAll_of_given {items : List α} {a : α} (given : a ∈ items)
    (r : Roster α) : identity a ∈ (r.insertAll items).identities :=
  mem_identities_insertAll.mpr (Or.inr ⟨a, given, rfl⟩)

theorem insertAll_flatMap_filter {β : Type} {kept : β → Bool} {brought : β → List α}
    {items : List β} {r : Roster α}
    (held : ∀ b ∈ items, kept b = false → ∀ a ∈ brought b, identity a ∈ r.identities) :
    r.insertAll ((items.filter kept).flatMap brought) = r.insertAll (items.flatMap brought) := by
  induction items generalizing r with
  | nil => rfl
  | cons b rest ih =>
    cases chosen : kept b with
    | true =>
      rw [List.filter_cons_of_pos chosen, List.flatMap_cons, List.flatMap_cons, insertAll_append,
        insertAll_append]
      apply ih
      intro c later dropped a given
      apply identities_insertAll_of_mem
      exact held c (List.mem_cons_of_mem b later) dropped a given
    | false =>
      have nothing : r.insertAll (brought b) = r :=
        insertAll_of_forall_mem (held b List.mem_cons_self chosen)
      rw [List.filter_cons_of_neg (Bool.eq_false_iff.mp chosen), List.flatMap_cons,
        insertAll_append, nothing]
      apply ih
      intro c later
      exact held c (List.mem_cons_of_mem b later)

/-- What comes with the items is the same whether or not an item is met again. -/
theorem insertAll_flatMap_firsts {β : Type} [Keyed β] {brought : β → List α} {items : List β}
    (same : ∀ b ∈ items, ∀ c ∈ items, identity b = identity c → b = c) (r : Roster α) :
    r.insertAll ((firsts items).flatMap brought) = r.insertAll (items.flatMap brought) := by
  induction items generalizing r with
  | nil => rfl
  | cons b rest ih =>
    have later : ∀ c ∈ rest, ∀ d ∈ rest, identity c = identity d → c = d := fun c there d other =>
      same c (List.mem_cons_of_mem b there) d (List.mem_cons_of_mem b other)
    have again : ∀ c ∈ firsts rest, decide (identity c ≠ identity b) = false →
        ∀ a ∈ brought c, identity a ∈ (r.insertAll (brought b)).identities := by
      intro c there met a given
      have alike : identity c = identity b := by simpa using met
      have equal : c = b := same c (List.mem_cons_of_mem b (mem_of_mem_firsts there)) b
        List.mem_cons_self alike
      exact identities_insertAll_of_given (equal ▸ given) r
    calc
      r.insertAll ((firsts (b :: rest)).flatMap brought) =
          (r.insertAll (brought b)).insertAll
            (((firsts rest).filter fun c => identity c ≠ identity b).flatMap brought) := by
        rw [firsts, List.flatMap_cons, insertAll_append]
      _ = (r.insertAll (brought b)).insertAll (rest.flatMap brought) := by
        rw [insertAll_flatMap_filter again, ih later]
      _ = r.insertAll ((b :: rest).flatMap brought) := by
        rw [List.flatMap_cons, insertAll_append]

/-! ## Amending and erasing -/

theorem find?_amend (r : Roster α) (id : Id) (change : α → α) (keeps : ∀ a, key (change a) = key a)
    (other : Id) :
    (r.amend id change keeps).find? other =
      (r.find? other).map fun a => if identity a = canonical id then change a else a := by
  have kept : ∀ a, identity (if identity a = canonical id then change a else a) = identity a := by
    intro a
    split
    · simp only [identity, keeps a]
    · rfl
  simp only [find?, amend, List.find?_map, Function.comp_def, kept]

theorem amend_of_missing {r : Roster α} {id : Id} (missing : r.contains id = false)
    (change : α → α) (keeps : ∀ a, key (change a) = key a) : r.amend id change keeps = r := by
  apply ext_members
  have others : ∀ a ∈ r.members, (if identity a = canonical id then change a else a) = a := by
    intro a member
    refine if_neg fun same => ?_
    rw [contains_iff.mpr ⟨a, member, same⟩] at missing
    cases missing
  exact (List.map_congr_left others).trans (List.map_id' r.members)

theorem find?_erase (r : Roster α) (id other : Id) :
    (r.erase id).find? other = if canonical other = canonical id then none else r.find? other := by
  simp only [find?, erase, List.find?_filter]
  split
  · next same =>
    rw [List.find?_eq_none]
    intro a _
    simp [same]
  · next differ =>
    congr 1
    funext a
    by_cases found : identity a = canonical other
    · simp [found, differ]
    · simp [found]

end Roster
end LineClosure
