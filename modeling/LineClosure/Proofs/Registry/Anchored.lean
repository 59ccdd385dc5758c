import LineClosure.Proofs.Registry.Persistence
import LineClosure.Registry.Query

/-! Every identifier in a relation is registered in the table it belongs to, and no list has
one twice. A change attaches only what it has looked up or taken in, and whoever is registered
stays, so every look-up that a query makes finds what it is for. -/

namespace LineClosure

open Keyed

/-! ## Rows -/

/-- The rows of a relation list items of the right sort, each once, for holders of the right
sort. Items are told apart in canonical form. -/
structure Anchors {ι : Type} [Canonical ι] (row : Id → List ι) (holds : Id → Prop)
    (listed : ι → Prop) : Prop where
  right : ∀ holder, ∀ item ∈ row holder, holds holder ∧ listed item
  once : ∀ holder, ((row holder).map canonical).Nodup

namespace Attachments

variable {ι : Type} [DecidableEq ι] [Canonical ι]

theorem lists_iff {items : List ι} {item : ι} :
    lists items item = true ↔ canonical item ∈ items.map canonical := by
  rw [lists, List.any_eq_true, List.mem_map]
  simp only [same, decide_eq_true_eq, eq_comm (a := canonical item)]

end Attachments

namespace Anchors

open Attachments

variable {ι : Type} [Canonical ι] {row : Id → List ι} {holds : Id → Prop} {listed : ι → Prop}

theorem of_nil (holds : Id → Prop) (listed : ι → Prop) : Anchors (fun _ => []) holds listed where
  right holder item there := by cases there
  once holder := List.nodup_nil

theorem mono (anchors : Anchors row holds listed) {holds' : Id → Prop} {listed' : ι → Prop}
    (holders : ∀ id, holds id → holds' id) (items : ∀ item, listed item → listed' item) :
    Anchors row holds' listed' where
  right holder item there :=
    (anchors.right holder item there).imp (holders holder) (items item)
  once := anchors.once

section
variable [DecidableEq ι] {r : Attachments ι}

theorem attach (anchors : Anchors r.row holds listed) {holder : Text} {item : ι}
    (fits : holds (.text holder)) (goes : listed item) :
    Anchors (r.attach (.text holder) item).row holds listed where
  right other x there := by
    rcases mem_row_attach there with old | ⟨rfl, rfl⟩
    · exact anchors.right other x old
    · exact ⟨fits, goes⟩
  once other := by
    rw [row_attach]
    split
    · split
      · exact anchors.once _
      · next fresh =>
        rw [lists_iff] at fresh
        have longer := (anchors.once (.text holder)).concat fresh
        rw [List.concat_eq_append] at longer
        rwa [List.map_append, List.map_singleton]
    · exact anchors.once other

theorem detach (anchors : Anchors r.row holds listed) (holder : Text) (item : ι) :
    Anchors (r.detach (.text holder) item).row holds listed where
  right other x there := anchors.right other x (mem_row_detach there)
  once other := by
    rw [row_detach]
    split
    · exact (anchors.once _).sublist (List.eraseP_sublist.map canonical)
    · exact anchors.once other

end

end Anchors

namespace Placement

/-- In a mutual placement items are texts, so they are told apart as they are. -/
theorem Mutual.once_canonical {p : Placement} (m : p.Mutual) (holder : Id) :
    ((p.row holder).map canonical).Nodup := by
  refine List.Nodup.map_on (fun first one second other same => ?_) (m.once holder)
  obtain ⟨_, _, _, rfl⟩ := m.textual holder first one
  exact (canonical_eq_text_iff.mp same.symm).symm

theorem Puts.mem_row {p q : Placement} {holder item : Text} (puts : p.Puts holder item q)
    {other x : Id} (there : x ∈ q.row other) :
    x ∈ p.row other ∨ (other = .text holder ∧ x = .text item) := by
  cases puts with
  | stays => exact Or.inl there
  | moves _ _ rows =>
    rw [rows] at there
    split at there
    · next same =>
      exact (List.mem_append.mp there).imp_right fun new => ⟨same, List.mem_singleton.mp new⟩
    · exact Or.inl (List.mem_of_mem_erase there)

theorem Takes.mem_row {p q : Placement} {holder item : Text} (takes : p.Takes holder item q)
    {other x : Id} (there : x ∈ q.row other) : x ∈ p.row other := by
  cases takes with
  | stays => exact there
  | leaves _ _ rows =>
    rw [rows] at there
    exact List.mem_of_mem_erase there

end Placement

namespace Anchors

variable {p q : Placement} {holds listed : Id → Prop} {holder item : Text}

theorem puts (anchors : Anchors p.row holds listed) (m : p.Mutual)
    (puts : p.Puts holder item q) (fits : holds (.text holder)) (goes : listed (.text item)) :
    Anchors q.row holds listed where
  right other x there := by
    rcases puts.mem_row there with old | ⟨rfl, rfl⟩
    · exact anchors.right other x old
    · exact ⟨fits, goes⟩
  once := (m.of_puts puts).once_canonical

theorem takes (anchors : Anchors p.row holds listed) (m : p.Mutual)
    (takes : p.Takes holder item q) : Anchors q.row holds listed where
  right other x there := anchors.right other x (takes.mem_row there)
  once := (m.of_takes takes).once_canonical

end Anchors

/-! ## Relations -/

namespace Registry

def Has (r : Registry) (α : Type) [Entity α] (id : Id) : Prop :=
  (Entity.table (α := α) r).contains id = true

theorem has_of_find? {r : Registry} {α : Type} [Entity α] {id : Id} {a : α}
    (found : (Entity.table r).find? id = some a) : r.Has α id := by
  rw [Has, Roster.contains_eq_isSome, found, Option.isSome_some]

theorem Persists.has {r s : Registry} (persists : r.Persists s) (kind : Kind) {id : Id}
    (there : r.Has kind.Entry id) : s.Has kind.Entry id := by
  rw [Has, Roster.contains_eq_isSome, Option.isSome_iff_exists] at there
  obtain ⟨a, found⟩ := there
  obtain ⟨b, still, _⟩ := persists kind id a found
  exact has_of_find? still

/-- The relations of a registry list what the tables of another one have registered. Lines
need not be registered. -/
structure AnchoredIn (r tables : Registry) : Prop where
  nesting : Anchors r.nesting.row (tables.Has StopArea) (tables.Has StopArea)
  siting : Anchors r.siting.row (tables.Has StopArea) (tables.Has StopPoint)
  constrainedAreas : Anchors r.constrainedAreas.row (tables.Has StopArea) (tables.Has StopArea)
  constrainedLines : Anchors r.constrainedLines.row (tables.Has StopArea)
    fun line => ∃ t : Text, line = t.reference
  connectionStarts : Anchors r.connectionStarts.row (tables.Has StopArea)
    (tables.Has ConnectionLink)
  connectionEnds : Anchors r.connectionEnds.row (tables.Has StopArea) (tables.Has ConnectionLink)
  linkedPaths : Anchors r.linkedPaths.row (tables.Has StopArea) (tables.Has AccessLink)
  entrances : Anchors r.entrances.row (tables.Has StopArea) (tables.Has AccessPoint)

abbrev Anchored (r : Registry) : Prop := r.AnchoredIn r

theorem anchored_empty : Anchored {} where
  nesting := .of_nil _ _
  siting := .of_nil _ _
  constrainedAreas := .of_nil _ _
  constrainedLines := .of_nil _ _
  connectionStarts := .of_nil _ _
  connectionEnds := .of_nil _ _
  linkedPaths := .of_nil _ _
  entrances := .of_nil _ _

theorem AnchoredIn.persists {r s t : Registry} (anchored : r.AnchoredIn s)
    (persists : s.Persists t) : r.AnchoredIn t := by
  have areas : ∀ id, s.Has StopArea id → t.Has StopArea id := fun _ => persists.has .stopArea
  have stops : ∀ id, s.Has StopPoint id → t.Has StopPoint id := fun _ => persists.has .stopPoint
  have links : ∀ id, s.Has ConnectionLink id → t.Has ConnectionLink id :=
    fun _ => persists.has .connectionLink
  have paths : ∀ id, s.Has AccessLink id → t.Has AccessLink id :=
    fun _ => persists.has .accessLink
  have points : ∀ id, s.Has AccessPoint id → t.Has AccessPoint id :=
    fun _ => persists.has .accessPoint
  exact
    { nesting := anchored.nesting.mono areas areas
      siting := anchored.siting.mono areas stops
      constrainedAreas := anchored.constrainedAreas.mono areas areas
      constrainedLines := anchored.constrainedLines.mono areas fun _ => id
      connectionStarts := anchored.connectionStarts.mono areas links
      connectionEnds := anchored.connectionEnds.mono areas links
      linkedPaths := anchored.linkedPaths.mono areas paths
      entrances := anchored.entrances.mono areas points }

end Registry

open Registry

theorem Effect.anchored {r s : Registry} {action : Action} (coherent : r.Coherent)
    (effect : Effect r action s) (anchored : r.Anchored) : s.Anchored := by
  have grown := anchored.persists effect.persists
  -- no record is lost, so only the table that is edited has anything to show
  cases effect with
  | @register _ _ record _ is =>
    cases record with
    | calendarDay | period | tally => cases is
    | _ =>
      cases is
      exact { grown with }
  | nest may _ puts =>
    exact { grown with
      nesting := grown.nesting.puts coherent.nesting puts (has_of_find? may.hasParent)
        (has_of_find? may.hasChild) }
  | nestInConstraint may | constrainArea may =>
    exact { grown with
      constrainedAreas := grown.constrainedAreas.attach (has_of_find? may.hasParent)
        (has_of_find? may.hasChild) }
  | unnest _ _ takes =>
    exact { grown with nesting := grown.nesting.takes coherent.nesting takes }
  | unnestFromConstraint | unconstrainArea =>
    exact { grown with constrainedAreas := grown.constrainedAreas.detach _ _ }
  | site hasArea hasStop _ puts =>
    exact { grown with
      siting := grown.siting.puts coherent.siting puts (has_of_find? hasArea)
        (has_of_find? hasStop) }
  | unsite takes => exact { grown with siting := grown.siting.takes coherent.siting takes }
  | @constrainLine _ line _ hasArea =>
    exact { grown with
      constrainedLines := grown.constrainedLines.attach (has_of_find? hasArea) ⟨line, rfl⟩ }
  | unconstrainLine =>
    exact { grown with constrainedLines := grown.constrainedLines.detach _ _ }
  | joinStart hasArea adopts =>
    exact { grown with
      connectionStarts := grown.connectionStarts.attach (has_of_find? hasArea)
        (Roster.contains_of_adopts adopts) }
  | joinFinish hasArea adopts =>
    exact { grown with
      connectionEnds := grown.connectionEnds.attach (has_of_find? hasArea)
        (Roster.contains_of_adopts adopts) }
  | dropConnection =>
    exact { grown with
      connectionStarts := grown.connectionStarts.detach _ _
      connectionEnds := grown.connectionEnds.detach _ _ }
  | joinAccessLink hasArea adopts =>
    exact { grown with
      linkedPaths := grown.linkedPaths.attach (has_of_find? hasArea)
        (Roster.contains_of_adopts adopts) }
  | dropAccessLink => exact { grown with linkedPaths := grown.linkedPaths.detach _ _ }
  | joinAccessPoint hasArea adopts =>
    exact { grown with
      entrances := grown.entrances.attach (has_of_find? hasArea)
        (Roster.contains_of_adopts adopts) }
  | dropAccessPoint => exact { grown with entrances := grown.entrances.detach _ _ }
  | retype => exact { grown with }

theorem Reachable.anchored {permitted : Action → Prop} {r : Registry}
    (reached : Reachable permitted r) : r.Anchored :=
  reached.invariant anchored_empty fun coherent _ effect => effect.anchored coherent

end LineClosure
