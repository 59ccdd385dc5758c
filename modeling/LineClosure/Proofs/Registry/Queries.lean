import LineClosure.Proofs.Registry.Anchored
import LineClosure.Proofs.Registry.TypeRules

/-! What can be asked of a registry that changes lead to. No query meets an identifier that
is not registered, so each answers with one entity for every entry of its list; the links of
an area are told in the order in which they joined; and the constraints on a line are the
areas that list it. -/

namespace LineClosure

open Keyed

theorem Attachments.row_of_mem {ι : Type} {r : Attachments ι} {list : Attachment ι}
    (member : list ∈ r.members) {id : Id} (same : identity list = canonical id) :
    r.row id = list.items := by
  rw [row, Roster.find?_eq_some_iff.mpr ⟨member, same⟩]
  rfl

namespace Registry

variable {r : Registry}

/-! ## Look-ups -/

/-- The entities that identifiers name, in order. One that is missing is a failure. -/
def lookUpAll [Entity α] (r : Registry) (ids : List Id) : Except Problem (List α) :=
  ids.mapM fun id => r.lookUp (.scalar id)

theorem lookUp_of_has {α : Type} [Entity α] {id : Id} (there : r.Has α id) :
    ∃ a, (Entity.table r).find? id = some a ∧ r.lookUp (α := α) (.scalar id) = .ok a := by
  rw [Has, Roster.contains_eq_isSome, Option.isSome_iff_exists] at there
  obtain ⟨a, found⟩ := there
  exact ⟨a, found, by simp only [lookUp, Value.id?, found]⟩

theorem lookUpAll_eq_entities {α : Type} [Entity α] {ids : List Id}
    (there : ∀ id ∈ ids, r.Has α id) : r.lookUpAll (α := α) ids = .ok (r.entities ids) := by
  induction ids with
  | nil => rfl
  | cons id rest ih =>
    obtain ⟨a, found, known⟩ := lookUp_of_has (there id List.mem_cons_self)
    have later := ih fun other listed => there other (List.mem_cons_of_mem id listed)
    unfold lookUpAll at later ⊢
    rw [List.mapM_cons, known, later, entities, entities, List.filterMap_cons_some found]
    rfl

theorem lookUp_holder {holder : Option Id} (there : ∀ id, holder = some id → r.Has StopArea id) :
    (holder.mapM fun id => r.lookUp (.scalar id)) = .ok (holder.bind r.stopAreas.find?) := by
  cases holder with
  | none => rfl
  | some id =>
    obtain ⟨a, found, known⟩ := lookUp_of_has (there id rfl)
    have same : r.stopAreas.find? id = some a := found
    rw [Option.mapM_some, known, Option.bind_some, same]
    rfl

theorem identity_entities {α : Type} [Entity α] (r : Registry) (ids : List Id) :
    ((r.entities (α := α) ids).map identity).Sublist (ids.map canonical) := by
  induction ids with
  | nil => exact .slnil
  | cons id rest ih =>
    cases found : (Entity.table (α := α) r).find? id with
    | none =>
      rw [entities, List.filterMap_cons_none found]
      exact ih.cons _
    | some a =>
      rw [entities, List.filterMap_cons_some found, List.map_cons, List.map_cons,
        Roster.identity_of_find? found]
      exact ih.cons_cons _

/-! ## Links -/

def joined (r : Registry) : Edit.LinkEnd → Id → List Id
  | .start => r.connectionStarts.row
  | .finish => r.connectionEnds.row

theorem connectionIdsAt_eq (r : Registry) (id : Id) :
    r.connectionIdsAt id = r.joined .start id ++
      (r.joined .finish id).filter fun link => !Attachments.lists (r.joined .start id) link := rfl

theorem Anchored.has_of_mem_connectionIdsAt (anchored : r.Anchored) {id link : Id}
    (listed : link ∈ r.connectionIdsAt id) : r.Has ConnectionLink link := by
  rw [connectionIdsAt_eq] at listed
  rcases List.mem_append.mp listed with starts | ends
  · exact (anchored.connectionStarts.right id link starts).2
  · exact (anchored.connectionEnds.right id link (List.mem_filter.mp ends).1).2

theorem Anchored.nodup_connectionIdsAt (anchored : r.Anchored) (id : Id) :
    ((r.connectionIdsAt id).map canonical).Nodup := by
  rw [connectionIdsAt_eq, List.map_append]
  refine List.nodup_append.mpr ⟨anchored.connectionStarts.once id, ?_, ?_⟩
  · exact (anchored.connectionEnds.once id).sublist (List.filter_sublist.map canonical)
  · intro first starts second ends same
    subst same
    obtain ⟨link, there, rfl⟩ := List.mem_map.mp ends
    have other := (List.mem_filter.mp there).2
    rw [Attachments.lists_iff.mpr starts] at other
    cases other

end Registry

open Registry

theorem Effect.joined {r s : Registry} {action : Action} (effect : Effect r action s)
    (side : Edit.LinkEnd) (holder : Id) :
    (s.joined side holder).Sublist (r.joined side holder) ∨
      ∃ p link, action = .joinConnection p link side ∧ holder = .text p ∧
        s.joined side holder = r.joined side holder ++ [link.id] := by
  have attached : ∀ {row : Attachments Id} {p : Text} {item : Id},
      ((row.attach (.text p) item).row holder).Sublist (row.row holder) ∨
        holder = .text p ∧ (row.attach (.text p) item).row holder = row.row holder ++ [item] := by
    intro row p item
    rw [Attachments.row_attach]
    split
    · next same =>
      obtain rfl := Attachments.canonical_text_iff.mp same
      split
      · exact Or.inl (.refl _)
      · exact Or.inr ⟨rfl, rfl⟩
    · exact Or.inl (.refl _)
  have detached : ∀ (row : Attachments Id) (p item : Text),
      ((row.detach (.text p) (.text item)).row holder).Sublist (row.row holder) := by
    intro row p item
    rw [Attachments.row_detach_text]
    split
    · exact List.erase_sublist
    · exact .refl _
  cases effect with
  | register is =>
    have same := sameRelations_withTable is r
    cases side
    · exact Or.inl (by rw [Registry.joined, (same _).connectionStarts]; exact .refl _)
    · exact Or.inl (by rw [Registry.joined, (same _).connectionEnds]; exact .refl _)
  | @joinStart p _ link =>
    cases side with
    | start => exact attached.imp_right fun last => ⟨p, link, rfl, last⟩
    | finish => exact Or.inl (.refl _)
  | @joinFinish p _ link =>
    cases side with
    | start => exact Or.inl (.refl _)
    | finish => exact attached.imp_right fun last => ⟨p, link, rfl, last⟩
  | dropConnection =>
    cases side with
    | start => exact Or.inl (detached _ _ _)
    | finish => exact Or.inl (detached _ _ _)
  | _ => cases side <;> exact Or.inl (.refl _)

theorem Action.joined {r : Registry} (coherent : r.Coherent) (action : Action)
    (side : Edit.LinkEnd) (holder : Id) :
    ((action.after r).joined side holder).Sublist (r.joined side holder) ∨
      ∃ p link, action = .joinConnection p link side ∧ holder = .text p ∧
        (action.after r).joined side holder = r.joined side holder ++ [link.id] := by
  rcases action.after_cases coherent.nesting coherent.siting with same | effect
  · rw [same]
    exact Or.inl (.refl _)
  · exact effect.joined side holder

/-! ## Constraints on a line -/

namespace Registry

variable {r : Registry}

/-- The lines of a constraint are texts, so one is listed if it is there as it is written. -/
theorem Anchored.lists_line (anchored : r.Anchored) (id : Id) (line : Text) :
    Attachments.lists (r.linesConstrainedBy id) line.reference = true ↔
      line.reference ∈ r.linesConstrainedBy id := by
  rw [Attachments.lists_iff, List.mem_map]
  constructor
  · rintro ⟨other, listed, same⟩
    obtain ⟨_, t, rfl⟩ := anchored.constrainedLines.right id other listed
    have written : t.reference = line.reference := same
    exact written ▸ listed
  · exact fun listed => ⟨_, listed, rfl⟩

theorem nodup_constraintsOn (r : Registry) (line : Reference) :
    ((r.constraintsOn line).map (·.id)).Nodup := by
  have holders : ((r.constrainedLines.holders line).map canonical).Nodup := by
    rw [Attachments.holders, List.map_map]
    exact r.constrainedLines.distinct.sublist (List.filter_sublist.map identity)
  have answers := holders.sublist (r.identity_entities (α := StopArea) _)
  refine List.Nodup.of_map canonical ?_
  rw [List.map_map]
  exact answers

theorem Anchored.mem_constraintsOn (anchored : r.Anchored) {t line : Text} :
    .text t ∈ (r.constraintsOn line.reference).map (·.id) ↔
      line.reference ∈ r.linesConstrainedBy (.text t) := by
  rw [← anchored.lists_line]
  constructor
  · intro answered
    obtain ⟨area, told, named⟩ := List.mem_map.mp answered
    obtain ⟨holder, holds, found⟩ := List.mem_filterMap.mp told
    obtain ⟨list, kept, rfl⟩ := List.mem_map.mp holds
    obtain ⟨member, lists⟩ := List.mem_filter.mp kept
    have same : key list = .text t := by
      refine canonical_eq_text_iff.mp ((Roster.identity_of_find? found).symm.trans ?_)
      exact congrArg canonical named
    rw [linesConstrainedBy, Attachments.row_of_mem member (congrArg canonical same)]
    exact lists
  · intro lists
    have listed := (anchored.lists_line _ _).mp lists
    obtain ⟨area, found, _⟩ :=
      lookUp_of_has (anchored.constrainedLines.right (.text t) _ listed).1
    rw [linesConstrainedBy, Attachments.row] at lists
    cases there : r.constrainedLines.find? (.text t) with
    | none =>
      rw [there] at lists
      cases lists
    | some list =>
      rw [there] at lists
      have holds : .text t ∈ r.constrainedLines.holders line.reference :=
        List.mem_map.mpr ⟨list, List.mem_filter.mpr ⟨Roster.mem_of_find? there, lists⟩,
          Roster.key_of_find?_text there⟩
      exact List.mem_map.mpr ⟨area, List.mem_filterMap.mpr ⟨_, holds, found⟩,
        Roster.key_of_find?_text found⟩

theorem Anchored.has_of_mem_holders (anchored : r.Anchored) {line : Reference} {holder : Id}
    (holds : holder ∈ r.constrainedLines.holders line) : r.Has StopArea holder := by
  obtain ⟨list, kept, rfl⟩ := List.mem_map.mp holds
  obtain ⟨member, lists⟩ := List.mem_filter.mp kept
  obtain ⟨item, listed, _⟩ := List.any_eq_true.mp lists
  rw [← Attachments.row_of_mem member rfl] at listed
  exact (anchored.constrainedLines.right list.holder item listed).1

end Registry

/-! ## Every query -/

/-- Of every registry that changes lead to: a record is found under its own identifier, and
whoever is registered is never lost or replaced. What is in a relation is registered, once in
its list. No look-up of a query fails. The links of an area are those that start there, in
the order in which they joined, and then the others that end there; and an area is told once
among the constraints on a line if it lists the line, and not at all otherwise. -/
theorem reachable_lookUps {permitted : Action → Prop} {r : Registry}
    (reached : Reachable permitted r) :
    (∀ kind : Kind,
      (∀ a ∈ (Entity.table (α := kind.Entry) r).members,
        (Entity.table (α := kind.Entry) r).find? (key a) = some a) ∧
      ∀ t a, (Entity.table (α := kind.Entry) r).find? (.text t) = some a → key a = .text t) ∧
    (∀ actions, (∀ action ∈ actions, permitted action) → r.Persists (perform actions r)) ∧
    r.Anchored ∧
    (∀ child parent, r.nesting.noted child = some parent →
      r.Has StopArea child ∧ r.Has StopArea parent) ∧
    (∀ stop area, r.siting.noted stop = some area → r.Has StopPoint stop ∧ r.Has StopArea area) ∧
    (∀ id,
      ((r.nesting.holder? id).mapM fun parent => r.lookUp (.scalar parent)) =
        .ok (r.parent? id) ∧
      r.lookUpAll (r.nesting.row id) = .ok (r.childAreas id) ∧
      r.lookUpAll (r.siting.row id) = .ok (r.childStopPoints id) ∧
      ((r.siting.holder? id).mapM fun area => r.lookUp (.scalar area)) = .ok (r.areaOf? id) ∧
      r.lookUpAll (r.constrainedAreas.row id) = .ok (r.areasConstrainedBy id) ∧
      r.lookUpAll (r.connectionIdsAt id) = .ok (r.connectionsAt id) ∧
      r.lookUpAll (r.linkedPaths.row id) = .ok (r.accessLinksAt id) ∧
      r.lookUpAll (r.entrances.row id) = .ok (r.accessPointsAt id)) ∧
    (∀ line, r.lookUpAll (r.constrainedLines.holders line) = .ok (r.constraintsOn line)) ∧
    (∀ id, ((r.connectionIdsAt id).map canonical).Nodup ∧
      r.connectionIdsAt id = r.joined .start id ++
        (r.joined .finish id).filter fun link =>
          !Attachments.lists (r.joined .start id) link) ∧
    (∀ (action : Action) side id,
      ((action.after r).joined side id).Sublist (r.joined side id) ∨
        ∃ p link, action = .joinConnection p link side ∧ id = .text p ∧
          (action.after r).joined side id = r.joined side id ++ [link.id]) ∧
    ∀ t line : Text, ((r.constraintsOn line.reference).map (·.id)).count (.text t) =
      if line.reference ∈ r.linesConstrainedBy (.text t) then 1 else 0 := by
  have anchored := reached.anchored
  have coherent := reached.coherent
  have nested : ∀ child parent, r.nesting.noted child = some parent →
      r.Has StopArea child ∧ r.Has StopArea parent := fun child parent noted =>
    (anchored.nesting.right parent child ((coherent.nesting.inverse _ _).mp noted)).symm
  have sited : ∀ stop area, r.siting.noted stop = some area →
      r.Has StopPoint stop ∧ r.Has StopArea area := fun stop area noted =>
    (anchored.siting.right area stop ((coherent.siting.inverse _ _).mp noted)).symm
  refine ⟨fun kind => ⟨fun a member => ?_, fun t a => Roster.key_of_find?_text⟩,
    fun actions may => reached.persists may, anchored, nested, sited,
    fun id => ⟨?_, ?_, ?_, ?_, ?_, ?_, ?_, ?_⟩, fun line => ?_,
    fun id => ⟨anchored.nodup_connectionIdsAt id, r.connectionIdsAt_eq id⟩,
    fun action => action.joined coherent, fun t line => ?_⟩
  · exact Roster.find?_eq_some_iff.mpr ⟨member, rfl⟩
  · exact lookUp_holder fun parent held => (nested id parent (Placement.noted_of_holder? held)).2
  · exact lookUpAll_eq_entities fun child listed => (anchored.nesting.right id child listed).2
  · exact lookUpAll_eq_entities fun stop listed => (anchored.siting.right id stop listed).2
  · exact lookUp_holder fun area held => (sited id area (Placement.noted_of_holder? held)).2
  · exact lookUpAll_eq_entities fun area listed =>
      (anchored.constrainedAreas.right id area listed).2
  · exact lookUpAll_eq_entities fun link => anchored.has_of_mem_connectionIdsAt
  · exact lookUpAll_eq_entities fun link listed => (anchored.linkedPaths.right id link listed).2
  · exact lookUpAll_eq_entities fun point listed => (anchored.entrances.right id point listed).2
  · refine lookUpAll_eq_entities fun holder holds => ?_
    exact anchored.has_of_mem_holders holds
  · rw [(r.nodup_constraintsOn line.reference).count]
    simp only [anchored.mem_constraintsOn]

/-- Two areas with two walks between them, one of which joins both of its ends to one area,
and a barrier that lists a line; a third area is refused, as its identifier is taken. -/
def walkways : List Action :=
  [.register (.stopArea hall), .register (.stopArea station), .register (.stopArea barrier),
    .joinConnection (.whole "H")
      { id := .text (.whole "W1"), startAreaId := .null, endAreaId := .null } .start,
    .joinConnection (.whole "H")
      { id := .text (.whole "W2"), startAreaId := .null, endAreaId := .null } .finish,
    .joinConnection (.whole "H")
      { id := .text (.whole "W1"), startAreaId := .null, endAreaId := .null } .finish,
    .nest (.whole "S") (.whole "H"), .constrainLine (.whole "B") (.whole "L"),
    .register (.stopArea { hall with areaType := .quay }), .retype (.whole "H") .stopPlace]

theorem reachable_lookUps_walkways :
    (perform walkways {}).connectionIdsAt hall.id = [.text (.whole "W1"), .text (.whole "W2")] ∧
    (∃ links, (perform walkways {}).lookUpAll (α := ConnectionLink)
      [.text (.whole "W1"), .text (.whole "W2")] = .ok links) ∧
    (((perform walkways {}).constraintsOn (Text.whole "L").reference).map (·.id)).count
      barrier.id = 1 ∧
    ((perform walkways {}).nesting.holder? hall.id).mapM
      (fun parent => (perform walkways {}).lookUp (α := StopArea) (.scalar parent)) =
        .ok (some station) := by
  have reached : Reachable (fun _ => True) (perform walkways {}) :=
    Reachable.empty.perform fun _ _ => trivial
  obtain ⟨_, _, _, _, _, answers, _, _, _, constraints⟩ := reachable_lookUps reached
  obtain ⟨parent, _, _, _, _, links, _⟩ := answers hall.id
  have walks : (perform walkways {}).connectionIdsAt hall.id =
      [.text (.whole "W1"), .text (.whole "W2")] := by decide
  have above : (perform walkways {}).parent? hall.id = some station := rfl
  have lists : (Text.whole "L").reference ∈
      (perform walkways {}).linesConstrainedBy barrier.id := by decide
  refine ⟨walks, ⟨_, walks ▸ links⟩, ?_, ?_⟩
  · exact (constraints (.whole "B") (.whole "L")).trans (if_pos lists)
  · exact parent.trans (congrArg _ above)

end LineClosure
