import LineClosure.Document.Canonical
import LineClosure.Document.Display

/-! Rosters: collections of records that keep the order of entry, with one record an
identifier. Whoever comes first stays; a later record of the same identifier is not let in.
Identifiers are compared in canonical form, and a record keeps its own as it was written.
Tables, relations and the sets of a closure are all rosters. -/

namespace LineClosure

/-- Records that are told apart by an identifier. -/
class Keyed (α : Type) where
  key : α → Id

open Keyed

def identity [Keyed α] (a : α) : Id := canonical (key a)

structure Roster (α : Type) [Keyed α] where
  members : List α
  distinct : (members.map identity).Nodup

namespace Roster

variable {α : Type} [Keyed α]

def empty : Roster α := ⟨[], List.nodup_nil⟩

instance : EmptyCollection (Roster α) := ⟨empty⟩
instance : Inhabited (Roster α) := ⟨empty⟩

theorem ext_members {r s : Roster α} (same : r.members = s.members) : r = s := by
  cases r
  cases s
  simp only at same
  subst same
  rfl

def ids (r : Roster α) : List Id := r.members.map key

def identities (r : Roster α) : List Id := r.members.map identity

def size (r : Roster α) : Nat := r.members.length

def find? (r : Roster α) (id : Id) : Option α :=
  r.members.find? fun a => identity a = canonical id

def contains (r : Roster α) (id : Id) : Bool := r.identities.contains (canonical id)

/-- The record a reference names. Only a scalar can be an identifier. -/
def resolve? (r : Roster α) (reference : Value) : Option α := reference.id?.bind r.find?

/-- Lets a record in unless its identifier is taken. -/
def insert (r : Roster α) (a : α) : Roster α :=
  if taken : identity a ∈ r.identities then r
  else ⟨r.members ++ [a], by
    simp only [identities] at taken
    simp only [List.map_append, List.map_cons, List.map_nil]
    refine List.nodup_append.mpr ⟨r.distinct, by simp, ?_⟩
    intro first found last single same
    rw [List.mem_singleton.mp single] at same
    exact taken (same ▸ found)⟩

def insertAll (r : Roster α) (items : List α) : Roster α := items.foldl insert r

def ofList (items : List α) : Roster α := empty.insertAll items

/-- Changes the record of an identifier in its place. The identifier cannot change. -/
def amend (r : Roster α) (id : Id) (change : α → α) (keeps : ∀ a, key (change a) = key a) :
    Roster α :=
  ⟨r.members.map fun a => if identity a = canonical id then change a else a, by
    have same : (r.members.map fun a => if identity a = canonical id then change a else a).map
        identity = r.members.map identity := by
      simp only [List.map_map, Function.comp_def]
      refine List.map_congr_left fun a _ => ?_
      split
      · simp only [identity, keeps a]
      · rfl
    rw [same]
    exact r.distinct⟩

def erase (r : Roster α) (id : Id) : Roster α :=
  ⟨r.members.filter fun a => identity a ≠ canonical id,
    r.distinct.sublist (List.filter_sublist.map identity)⟩

def describe (r : Roster α) : String :=
  "EntitySet(" ++ (Value.list (r.ids.map .scalar)).nested ++ ")"

@[simp] theorem ids_empty : (empty : Roster α).ids = [] := rfl

@[simp] theorem identities_empty : (empty : Roster α).identities = [] := rfl

theorem identities_insert (r : Roster α) (a : α) :
    (r.insert a).identities =
      if identity a ∈ r.identities then r.identities else r.identities ++ [identity a] := by
  unfold insert
  split
  · rfl
  · simp [identities]

theorem identities_nodup (r : Roster α) : r.identities.Nodup := r.distinct

theorem identities_eq_map (r : Roster α) : r.identities = r.ids.map canonical := by
  simp only [identities, ids, List.map_map]
  rfl

/-- Identifiers of one canonical form are never both there, so none is there twice. -/
theorem ids_nodup (r : Roster α) : r.ids.Nodup := by
  have distinct := r.identities_nodup
  rw [identities_eq_map] at distinct
  exact List.Pairwise.of_map canonical (fun _ _ differ same => differ (congrArg _ same)) distinct

theorem mem_ids_iff {r : Roster α} {id : Id} : id ∈ r.ids ↔ ∃ a ∈ r.members, key a = id :=
  List.mem_map

theorem contains_iff {r : Roster α} {id : Id} :
    r.contains id = true ↔ ∃ a ∈ r.members, identity a = canonical id := by
  simp [contains, identities]

theorem identity_of_find? {r : Roster α} {id : Id} {a : α} (found : r.find? id = some a) :
    identity a = canonical id := by
  simpa using List.find?_some found

theorem key_of_find?_text {r : Roster α} {t : Text} {a : α} (found : r.find? (.text t) = some a) :
    key a = .text t :=
  canonical_eq_text_iff.mp (identity_of_find? found)

theorem mem_of_find? {r : Roster α} {id : Id} {a : α} (found : r.find? id = some a) :
    a ∈ r.members :=
  List.mem_of_find?_eq_some found

@[simp] theorem ids_amend (r : Roster α) (id : Id) (change : α → α)
    (keeps : ∀ a, key (change a) = key a) : (r.amend id change keeps).ids = r.ids := by
  simp only [ids, amend, List.map_map]
  refine List.map_congr_left fun a _ => ?_
  simp only [Function.comp_apply]
  split
  · exact keeps a
  · rfl

end Roster
end LineClosure
