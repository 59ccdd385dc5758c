import LineClosure.Proofs.Registry.Relations
import LineClosure.Proofs.Registry.Queries

/-! Each change of a registry does one thing to the relations. It adds one entry or deletes
what its name says, at the place where the lists keep it, and touches no other table. To add
what is there, or to delete what is not, does nothing at all. -/

namespace LineClosure

open Keyed

namespace Registry

def isConstraint (r : Registry) (area : Text) : Bool :=
  (r.stopAreas.find? (.text area)).any fun a => a.areaType = .routingConstraint

section
variable {r : Registry} {area : Text} {a : StopArea}
  (found : r.stopAreas.find? (.text area) = some a)
include found

theorem isConstraint_eq_true (constraint : a.areaType = .routingConstraint) :
    r.isConstraint area = true := by
  rw [isConstraint, found]
  exact decide_eq_true constraint

theorem isConstraint_eq_false (other : a.areaType ≠ .routingConstraint) :
    r.isConstraint area = false := by
  rw [isConstraint, found]
  exact decide_eq_false other

end

end Registry

namespace Action

/-- The entry that a change adds. Areas go into the list of a routing constraint, and inside
areas of any other type. -/
def adds (isConstraint : Text → Bool) : Action → Option Tie
  | nest area item =>
    some (if isConstraint area then .constrainedArea area item else .child area item)
  | constrainArea area item => some (.constrainedArea area item)
  | site area item => some (.stop area item)
  | constrainLine area line => some (.constrainedLine area line)
  | joinConnection area link .start => some (.linkStart area link.id)
  | joinConnection area link .finish => some (.linkEnd area link.id)
  | joinAccessLink area link => some (.path area link.id)
  | joinAccessPoint area point => some (.entrance area point.id)
  | register _ | retype .. | unnest .. | unconstrainArea .. | unsite .. | unconstrainLine ..
  | dropConnection .. | dropAccessLink .. | dropAccessPoint .. => none

def drops (isConstraint : Text → Bool) : Action → List Tie
  | unnest area item =>
    [if isConstraint area then .constrainedArea area item else .child area item]
  | unconstrainArea area item => [.constrainedArea area item]
  | unsite area item => [.stop area item]
  | unconstrainLine area line => [.constrainedLine area line]
  | dropConnection area link => [.linkStart area (.text link), .linkEnd area (.text link)]
  | dropAccessLink area link => [.path area (.text link)]
  | dropAccessPoint area point => [.entrance area (.text point)]
  | register _ | retype .. | nest .. | constrainArea .. | site .. | constrainLine ..
  | joinConnection .. | joinAccessLink .. | joinAccessPoint .. => []

def changes (isConstraint : Text → Bool) (action : Action) (t : Relations) : Relations :=
  (action.drops isConstraint).foldl Relations.drop ((action.adds isConstraint).elim t t.add)

end Action

open Registry Attachments

theorem Effect.relations {r s : Registry} {action : Action} (coherent : r.Coherent)
    (effect : Effect r action s) :
    s.relations = action.changes r.isConstraint r.relations := by
  -- An action edits one table, or both of those of the connection links: the other fields of the
  -- two sides are the same as they stand.
  cases effect with
  | register is =>
    have same := sameRelations_withTable is r
    simp only [Registry.relations, (same _).nesting, (same _).siting, (same _).constrainedAreas,
      (same _).constrainedLines, (same _).connectionStarts, (same _).connectionEnds,
      (same _).linkedPaths, (same _).entrances]
    rfl
  | @nest p c parent _ q may inside puts =>
    have other : r.isConstraint p = false := isConstraint_eq_false may.hasParent inside
    simp only [Action.changes, Action.adds, other]
    exact congrArg (fun areas => { r.relations with areas }) (puts.whereabouts coherent.nesting)
  | @nestInConstraint p c _ _ may constraint =>
    have lists : r.isConstraint p = true := isConstraint_eq_true may.hasParent constraint
    simp only [Action.changes, Action.adds, lists]
    exact congrArg (fun constrainedAreas => { r.relations with constrainedAreas })
      (r.constrainedAreas.row_attach_join p _)
  | @unnest p c _ _ hasParent inside takes =>
    have other : r.isConstraint p = false := isConstraint_eq_false hasParent inside
    simp only [Action.changes, Action.drops, other]
    exact congrArg (fun areas => { r.relations with areas }) (takes.whereabouts coherent.nesting)
  | @unnestFromConstraint p c _ hasParent constraint =>
    have lists : r.isConstraint p = true := isConstraint_eq_true hasParent constraint
    simp only [Action.changes, Action.drops, lists]
    exact congrArg (fun constrainedAreas => { r.relations with constrainedAreas })
      (r.constrainedAreas.row_detach_leave p fun _ => same_text_left)
  | @constrainArea p =>
    exact congrArg (fun constrainedAreas => { r.relations with constrainedAreas })
      (r.constrainedAreas.row_attach_join p _)
  | @unconstrainArea p =>
    exact congrArg (fun constrainedAreas => { r.relations with constrainedAreas })
      (r.constrainedAreas.row_detach_leave p fun _ => same_text_left)
  | site _ _ _ puts =>
    exact congrArg (fun stopPoints => { r.relations with stopPoints })
      (puts.whereabouts coherent.siting)
  | unsite takes =>
    exact congrArg (fun stopPoints => { r.relations with stopPoints })
      (takes.whereabouts coherent.siting)
  | @constrainLine p =>
    exact congrArg (fun constrainedLines => { r.relations with constrainedLines })
      (r.constrainedLines.row_attach_join p _)
  | @unconstrainLine p l =>
    exact congrArg (fun constrainedLines => { r.relations with constrainedLines })
      (r.constrainedLines.row_detach_leave p (same_reference l))
  | @joinStart p =>
    exact congrArg (fun linkStarts => { r.relations with linkStarts })
      (r.connectionStarts.row_attach_join p _)
  | @joinFinish p =>
    exact congrArg (fun linkEnds => { r.relations with linkEnds })
      (r.connectionEnds.row_attach_join p _)
  | @dropConnection p =>
    exact congrArg₂ (fun linkStarts linkEnds => { r.relations with linkStarts, linkEnds })
      (r.connectionStarts.row_detach_leave p fun _ => same_text_left)
      (r.connectionEnds.row_detach_leave p fun _ => same_text_left)
  | @joinAccessLink p =>
    exact congrArg (fun paths => { r.relations with paths }) (r.linkedPaths.row_attach_join p _)
  | @dropAccessLink p =>
    exact congrArg (fun paths => { r.relations with paths })
      (r.linkedPaths.row_detach_leave p fun _ => same_text_left)
  | @joinAccessPoint p =>
    exact congrArg (fun entrances => { r.relations with entrances })
      (r.entrances.row_attach_join p _)
  | @dropAccessPoint p =>
    exact congrArg (fun entrances => { r.relations with entrances })
      (r.entrances.row_detach_leave p fun _ => same_text_left)
  | retype => rfl

/-! ## Entries -/

namespace Attachments

variable {ι : Type} [DecidableEq ι] [Canonical ι] {r : Attachments ι} {holder : Text} {item : ι}

theorem lists_attach : lists ((r.attach (.text holder) item).row (.text holder)) item = true := by
  rw [row_attach, if_pos rfl]
  split
  · assumption
  · exact Listing.lists_of_mem (List.mem_append_right _ List.mem_cons_self)

/-- No list has an item twice, so it is gone once it is deleted. -/
theorem not_lists_detach (once : ((r.row (.text holder)).map canonical).Nodup) :
    ¬lists ((r.detach (.text holder) item).row (.text holder)) item = true := by
  rw [row_detach, if_pos rfl, lists_iff, List.mem_map]
  rintro ⟨other, left, alike⟩
  have found := List.mem_of_mem_eraseP left
  obtain ⟨first, front, back, before, hit, split, erased⟩ :=
    List.exists_of_eraseP (p := same item) found (decide_eq_true alike.symm)
  rw [erased] at left
  rw [split, List.map_append, List.map_cons] at once
  have same : canonical first = canonical other :=
    (of_decide_eq_true hit).symm.trans alike.symm
  rcases List.mem_append.mp left with earlier | later
  · exact before other earlier (decide_eq_true alike.symm)
  · have rest := (List.nodup_append.mp once).2.1
    exact (List.nodup_cons.mp rest).1 (same ▸ List.mem_map_of_mem later)

end Attachments

theorem Effect.has {r s : Registry} {action : Action} (coherent : r.Coherent)
    (effect : Effect r action s) {tie : Tie} (adds : action.adds r.isConstraint = some tie) :
    s.relations.Has tie := by
  have placed : ∀ {p q : Placement} {holder item : Text}, p.Mutual → p.Puts holder item q →
      .text item ∈ q.row (.text holder) := by
    intro p q holder item m puts
    cases puts with
    | stays here => exact (m.inverse _ _).mp here
    | moves _ _ rows =>
      rw [rows, if_pos rfl]
      exact List.mem_append_right _ List.mem_cons_self
  cases effect with
  | nest may inside puts =>
    have other := isConstraint_eq_false may.hasParent inside
    rw [Action.adds, other] at adds
    cases adds
    exact placed coherent.nesting puts
  | nestInConstraint may constraint =>
    have lists := isConstraint_eq_true may.hasParent constraint
    rw [Action.adds, lists] at adds
    cases adds
    exact lists_attach
  | site _ _ _ puts =>
    cases adds
    exact placed coherent.siting puts
  | constrainArea | constrainLine | joinStart | joinFinish | joinAccessLink | joinAccessPoint =>
    cases adds
    exact lists_attach
  | _ => cases adds

theorem Effect.not_has {r s : Registry} {action : Action} (coherent : r.Coherent)
    (anchored : r.Anchored) (effect : Effect r action s) :
    ∀ tie ∈ action.drops r.isConstraint, ¬s.relations.Has tie := by
  have taken : ∀ {p q : Placement} {holder item : Text}, p.Mutual → p.Takes holder item q →
      .text item ∉ q.row (.text holder) := by
    intro p q holder item m takes
    cases takes with
    | stays elsewhere => exact elsewhere
    | leaves _ _ rows =>
      rw [rows]
      exact (m.once _).not_mem_erase
  intro tie named
  cases effect with
  | unnest hasParent inside takes =>
    have other := isConstraint_eq_false hasParent inside
    rw [Action.drops, other] at named
    obtain rfl := List.mem_singleton.mp named
    exact taken coherent.nesting takes
  | unnestFromConstraint hasParent constraint =>
    have lists := isConstraint_eq_true hasParent constraint
    rw [Action.drops, lists] at named
    obtain rfl := List.mem_singleton.mp named
    exact not_lists_detach (anchored.constrainedAreas.once _)
  | unconstrainArea =>
    obtain rfl := List.mem_singleton.mp named
    exact not_lists_detach (anchored.constrainedAreas.once _)
  | unsite takes =>
    obtain rfl := List.mem_singleton.mp named
    exact taken coherent.siting takes
  | unconstrainLine =>
    obtain rfl := List.mem_singleton.mp named
    exact not_lists_detach (anchored.constrainedLines.once _)
  | dropConnection =>
    rcases List.mem_cons.mp named with rfl | last
    · exact not_lists_detach (anchored.connectionStarts.once _)
    · obtain rfl := List.mem_singleton.mp last
      exact not_lists_detach (anchored.connectionEnds.once _)
  | dropAccessLink =>
    obtain rfl := List.mem_singleton.mp named
    exact not_lists_detach (anchored.linkedPaths.once _)
  | dropAccessPoint =>
    obtain rfl := List.mem_singleton.mp named
    exact not_lists_detach (anchored.entrances.once _)
  | _ => cases named

/-! ## Doing it again -/

namespace Attachments

variable {ι : Type} [DecidableEq ι] [Canonical ι] {r : Attachments ι}

omit [DecidableEq ι] [Canonical ι] in
theorem amend_of_same {holder : Id} {edit : List ι → List ι}
    (keeps : ∀ a : Attachment ι, key { a with items := edit a.items } = key a)
    (same : edit (r.row holder) = r.row holder) :
    Roster.amend r holder (fun a => { a with items := edit a.items }) keeps = r := by
  apply Roster.ext_members
  show r.members.map _ = r.members
  rw [List.map_congr_left (g := id), List.map_id]
  intro list member
  split
  · next found =>
    rw [row_of_mem member found] at same
    show ({ list with items := edit list.items } : Attachment ι) = list
    rw [same]
  · rfl

theorem attach_of_lists {holder : Id} {item : ι} (there : lists (r.row holder) item = true) :
    r.attach holder item = r := by
  have kept : identity (⟨holder, []⟩ : Attachment ι) ∈ r.identities := by
    cases found : r.find? holder with
    | none =>
      rw [row, found] at there
      cases there
    | some list =>
      exact List.mem_map.mpr ⟨list, Roster.mem_of_find? found, Roster.identity_of_find? found⟩
  rw [attach, editRow, Roster.insert_of_mem kept]
  exact @amend_of_same ι r holder
    (fun items => if lists items item then items else items ++ [item]) (fun _ => rfl)
    (if_pos there)

theorem detach_of_unlisted {holder : Id} {item : ι} (absent : ¬lists (r.row holder) item = true) :
    r.detach holder item = r := by
  refine amend_of_same _ (List.eraseP_of_forall_not fun other listed alike => absent ?_)
  exact List.any_eq_true.mpr ⟨other, listed, alike⟩

end Attachments

theorem Adopts.eq_of_lists {α : Type} [Keyed α] {stamp : α → Nat} {table later : Roster α} {a : α}
    (adopts : Adopts stamp table a later) {items : List Id}
    (known : ∀ id ∈ items, table.contains id = true) (there : lists items (key a) = true) :
    later = table := by
  cases adopts with
  | known => rfl
  | enters fresh =>
    obtain ⟨id, listed, same⟩ := List.mem_map.mp (lists_iff.mp there)
    have taken := known id listed
    rw [Roster.contains_eq_isSome, Roster.find?, same] at taken
    rw [Roster.find?] at fresh
    rw [fresh] at taken
    cases taken

theorem Effect.eq_of_has {r s : Registry} {action : Action} (anchored : r.Anchored)
    (effect : Effect r action s) {tie : Tie}
    (adds : action.adds r.isConstraint = some tie) (there : r.relations.Has tie) : s = r := by
  cases effect with
  | nest may inside puts =>
    have other := isConstraint_eq_false may.hasParent inside
    rw [Action.adds, other] at adds
    cases adds
    cases puts with
    | stays => rfl
    | moves elsewhere => exact absurd there elsewhere
  | nestInConstraint may constraint =>
    have lists := isConstraint_eq_true may.hasParent constraint
    rw [Action.adds, lists] at adds
    cases adds
    rw [attach_of_lists there]
  | constrainArea =>
    cases adds
    rw [attach_of_lists there]
  | site _ _ _ puts =>
    cases adds
    cases puts with
    | stays => rfl
    | moves elsewhere => exact absurd there elsewhere
  | constrainLine =>
    cases adds
    rw [attach_of_lists there]
  -- a link that is listed is registered, so it is known and does not enter
  | @joinStart p _ link _ _ adopts =>
    cases adds
    rw [adopts.eq_of_lists (fun id listed => (anchored.connectionStarts.right _ id listed).2) there,
      attach_of_lists there]
  | @joinFinish p _ link _ _ adopts =>
    cases adds
    rw [adopts.eq_of_lists (fun id listed => (anchored.connectionEnds.right _ id listed).2) there,
      attach_of_lists there]
  | joinAccessLink _ adopts =>
    cases adds
    rw [adopts.eq_of_lists (fun id listed => (anchored.linkedPaths.right _ id listed).2) there,
      attach_of_lists there]
  | joinAccessPoint _ adopts =>
    cases adds
    rw [adopts.eq_of_lists (fun id listed => (anchored.entrances.right _ id listed).2) there,
      attach_of_lists there]
  | _ => cases adds

theorem Effect.eq_of_absent {r s : Registry} {action : Action} (effect : Effect r action s)
    (removes : action.drops r.isConstraint ≠ [])
    (absent : ∀ tie ∈ action.drops r.isConstraint, ¬r.relations.Has tie) : s = r := by
  cases effect with
  | @unnest p c _ _ hasParent inside takes =>
    have other := isConstraint_eq_false hasParent inside
    rw [Action.drops, other] at absent
    cases takes with
    | stays => rfl
    | leaves here => exact absurd here (absent _ List.mem_cons_self)
  | @unnestFromConstraint p c _ hasParent constraint =>
    have lists := isConstraint_eq_true hasParent constraint
    rw [Action.drops, lists] at absent
    rw [detach_of_unlisted (absent _ List.mem_cons_self)]
  | unconstrainArea => rw [detach_of_unlisted (absent _ List.mem_cons_self)]
  | unsite takes =>
    cases takes with
    | stays => rfl
    | leaves here => exact absurd here (absent _ List.mem_cons_self)
  | unconstrainLine => rw [detach_of_unlisted (absent _ List.mem_cons_self)]
  | dropConnection =>
    rw [detach_of_unlisted (absent _ List.mem_cons_self),
      detach_of_unlisted (absent _ (List.mem_cons_of_mem _ List.mem_cons_self))]
  | dropAccessLink => rw [detach_of_unlisted (absent _ List.mem_cons_self)]
  | dropAccessPoint => rw [detach_of_unlisted (absent _ List.mem_cons_self)]
  | _ => exact absurd rfl removes

end LineClosure
