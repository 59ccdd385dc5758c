import LineClosure.Proofs.Registry.Mutators
import LineClosure.Proofs.Registry.Refusals

/-! Undoing a change of a registry. A change that takes back what has just been added leaves the
relations as they were, and with them every answer, the order of the areas that list a line
included. -/

namespace LineClosure

open Keyed Registry Attachments

/-! ## The constraints on a line -/

def Action.concerns : Action → Id → Reference → Bool
  | .constrainLine area line, holder, other | .unconstrainLine area line, holder, other =>
    holder = .text area && other = line.reference
  | _, _, _ => false

namespace Attachments

variable {ι : Type} [DecidableEq ι] [Canonical ι] {r : Attachments ι}

/-- The holders of an item keep their order, but for one whose list is changed. -/
theorem holders_amend (r : Attachments ι) (holder : Text) (edit : List ι → List ι)
    (keeps : ∀ a : Attachment ι, key { a with items := edit a.items } = key a) {item : ι}
    {kept : Id → Bool}
    (same : kept (.text holder) = true → ∀ items, lists (edit items) item = lists items item) :
    (holders (r.amend (.text holder) (fun a => { a with items := edit a.items }) keeps) item).filter
      kept = (r.holders item).filter kept := by
  have one : ∀ list : Attachment ι,
      (lists (if identity list = canonical (Scalar.text holder) then
          { list with items := edit list.items } else list).items item && kept list.holder) =
        (lists list.items item && kept list.holder) := by
    intro list
    split
    · next found =>
      have named : list.holder = .text holder := canonical_text_iff.mp found
      rw [named]
      cases shown : kept (.text holder) with
      | false => rw [Bool.and_false, Bool.and_false]
      | true => rw [same shown]
    · rfl
  have holder_kept : ∀ list : Attachment ι,
      (if identity list = canonical (Scalar.text holder) then
        ({ list with items := edit list.items } : Attachment ι) else list).holder =
        list.holder := by
    intro list
    split <;> rfl
  simp only [holders, Roster.amend, List.filter_map, List.filter_filter, List.map_map,
    Function.comp_def, holder_kept]
  congr 1
  refine List.filter_congr fun list _ => ?_
  rw [Bool.and_comm, one, Bool.and_comm]

theorem holders_insert (r : Attachments ι) (holder : Id) (item : ι) :
    holders (r.insert ⟨holder, []⟩) item = r.holders item := by
  rw [holders, Roster.members_insert]
  split
  · rfl
  · rw [List.filter_append, List.filter_singleton]
    simp [lists, holders]

section
variable {holder : Text} {item other : ι} {kept : Id → Bool}
  (differ : kept (.text holder) = true → same other item = false)
include differ

theorem holders_attach (r : Attachments ι) :
    ((r.attach (.text holder) item).holders other).filter kept =
      (r.holders other).filter kept := by
  rw [← holders_insert r (.text holder)]
  refine holders_amend (r.insert ⟨.text holder, []⟩) holder
    (fun items => if lists items item then items else items ++ [item]) (fun _ => rfl)
    fun shown items => ?_
  split
  · rfl
  · rw [lists, List.any_append, List.any_cons, differ shown, List.any_nil, Bool.or_false,
      Bool.or_false, lists]

theorem holders_detach (r : Attachments ι) :
    ((r.detach (.text holder) item).holders other).filter kept =
      (r.holders other).filter kept := by
  refine holders_amend r holder (fun items => items.eraseP (same item)) (fun _ => rfl)
    fun shown items => ?_
  rw [Bool.eq_iff_iff, lists, lists, List.any_eq_true, List.any_eq_true]
  have still : ∀ x, same other x = true → (x ∈ items.eraseP (same item) ↔ x ∈ items) := by
    intro x alike
    refine List.mem_eraseP_of_neg fun hit => ?_
    have apart := differ shown
    simp only [same, decide_eq_true_eq, decide_eq_false_iff_not] at alike hit apart
    exact apart (alike.trans hit.symm)
  exact exists_congr fun x => and_congr_left (still x)

end

end Attachments

theorem Effect.holders {r s : Registry} {action : Action} (effect : Effect r action s)
    (line : Reference) :
    (s.constrainedLines.holders line).filter (fun area => !action.concerns area line) =
      (r.constrainedLines.holders line).filter fun area => !action.concerns area line := by
  have differ : ∀ {p l : Text},
      (!(decide (Scalar.text p = .text p) && decide (line = l.reference))) = true →
        same line l.reference = false := by
    intro p l shown
    rw [decide_eq_true rfl, Bool.true_and, ← same_reference, Bool.not_eq_true'] at shown
    rw [← shown, same, same, decide_eq_decide, eq_comm]
  cases effect with
  | register is => rw [(sameRelations_withTable is r _).constrainedLines]
  | constrainLine => exact holders_attach differ r.constrainedLines
  | unconstrainLine => exact holders_detach differ r.constrainedLines
  | _ => rfl

/-! ## Undoing -/

def textOf? : Id → Option Text
  | .text t => some t
  | _ => none

theorem textOf?_eq_some_iff {id : Id} {t : Text} : textOf? id = some t ↔ id = .text t := by
  cases id with
  | text u => simp only [textOf?, Option.some.injEq, Scalar.text.injEq]
  | _ =>
    constructor
    · intro same
      cases same
    · intro same
      cases same

/-- The change that is there to undo another one. It names a link or a point by a text. -/
def Action.undo? : Action → Option Action
  | nest area item => some (.unnest area item)
  | constrainArea area item => some (.unconstrainArea area item)
  | site area item => some (.unsite area item)
  | constrainLine area line => some (.unconstrainLine area line)
  | joinConnection area link _ => (textOf? link.id).map (.dropConnection area)
  | joinAccessLink area link => (textOf? link.id).map (.dropAccessLink area)
  | joinAccessPoint area point => (textOf? point.id).map (.dropAccessPoint area)
  | register _ | retype .. | unnest .. | unconstrainArea .. | unsite .. | unconstrainLine ..
  | dropConnection .. | dropAccessLink .. | dropAccessPoint .. => none

theorem Action.ties_of_undo {action back : Action} (undoes : action.undo? = some back)
    (isConstraint : Text → Bool) :
    ∃ tie, action.adds isConstraint = some tie ∧ action.drops isConstraint = [] ∧
      back.adds isConstraint = none ∧ back.drops isConstraint = tie.undone := by
  cases action with
  | nest area item =>
    cases undoes
    refine ⟨_, rfl, rfl, rfl, ?_⟩
    rw [drops]
    split <;> rfl
  | constrainArea | site | constrainLine =>
    cases undoes
    exact ⟨_, rfl, rfl, rfl, rfl⟩
  | joinConnection area link side =>
    obtain ⟨id, named, rfl⟩ := Option.map_eq_some_iff.mp undoes
    have same := textOf?_eq_some_iff.mp named
    cases side with
    | start => exact ⟨_, rfl, rfl, rfl, by rw [drops, Tie.undone, same]⟩
    | finish => exact ⟨_, rfl, rfl, rfl, by rw [drops, Tie.undone, same]⟩
  | joinAccessLink area link =>
    obtain ⟨id, named, rfl⟩ := Option.map_eq_some_iff.mp undoes
    have same := textOf?_eq_some_iff.mp named
    exact ⟨_, rfl, rfl, rfl, congrArg (fun link => [Tie.path area link]) same.symm⟩
  | joinAccessPoint area point =>
    obtain ⟨id, named, rfl⟩ := Option.map_eq_some_iff.mp undoes
    have same := textOf?_eq_some_iff.mp named
    exact ⟨_, rfl, rfl, rfl, congrArg (fun point => [Tie.entrance area point]) same.symm⟩
  | _ => cases undoes

namespace Edit

variable {r : Registry} {p c : Text} {area : StopArea}

theorem unnest_ok (m : r.nesting.Mutual) (hasArea : r.stopAreas.find? (.text p) = some area) :
    ∃ s, unnest p.reference c.reference r = .ok () s := by
  unfold unnest
  rw [bind_ok (require_found hasArea)]
  simp only [Text.reference, Value.id?]
  split
  · exact ⟨_, rfl⟩
  · obtain ⟨q, done, _⟩ := m.take_ok p c
    rw [show area.id = .text p from Roster.key_of_find?_text hasArea]
    exact ⟨_, onNesting_ok done⟩

theorem unsite_ok (m : r.siting.Mutual) : ∃ s, unsite p.reference c.reference r = .ok () s := by
  obtain ⟨q, done, _⟩ := m.take_ok p c
  exact ⟨_, onSiting_ok done⟩

theorem unconstrainArea_ok {child : StopArea}
    (hasArea : r.stopAreas.find? (.text p) = some area)
    (hasChild : r.stopAreas.find? (.text c) = some child)
    (constraint : area.areaType = .routingConstraint) :
    ∃ s, unconstrainArea p.reference c.reference r = .ok () s := by
  unfold unconstrainArea
  rw [bind_ok (require_found hasArea), bind_ok (require_found hasChild), constraint]
  exact ⟨_, rfl⟩

theorem unconstrainLine_ok (hasArea : r.stopAreas.find? (.text p) = some area)
    (constraint : area.areaType = .routingConstraint) :
    ∃ s, unconstrainLine p.reference c.reference r = .ok () s := by
  unfold unconstrainLine
  rw [bind_ok (require_found hasArea), constraint]
  exact ⟨_, rfl⟩

end Edit

theorem Effect.undo_runs {r s : Registry} {action back : Action} (coherent : s.Coherent)
    (effect : Effect r action s) (undoes : action.undo? = some back) :
    ∃ t, back.edit s = .ok () t := by
  cases effect with
  | nest may =>
    cases undoes
    exact Edit.unnest_ok coherent.nesting may.hasParent
  | nestInConstraint may =>
    cases undoes
    exact Edit.unnest_ok coherent.nesting may.hasParent
  | constrainArea may constraint =>
    cases undoes
    exact Edit.unconstrainArea_ok may.hasParent may.hasChild constraint
  | site =>
    cases undoes
    exact Edit.unsite_ok coherent.siting
  | constrainLine hasArea constraint =>
    cases undoes
    exact Edit.unconstrainLine_ok hasArea constraint
  | joinStart | joinFinish | joinAccessLink | joinAccessPoint =>
    obtain ⟨id, _, rfl⟩ := Option.map_eq_some_iff.mp undoes
    exact ⟨_, rfl⟩
  | _ => cases undoes

/-! ## Answers -/

namespace Registry

/-- Every query about relations is answered alike. -/
structure SameAnswers (r s : Registry) : Prop where
  parent? : ∀ id, s.parent? id = r.parent? id
  childAreas : ∀ id, s.childAreas id = r.childAreas id
  childStopPoints : ∀ id, s.childStopPoints id = r.childStopPoints id
  areaOf? : ∀ id, s.areaOf? id = r.areaOf? id
  areasConstrainedBy : ∀ id, s.areasConstrainedBy id = r.areasConstrainedBy id
  linesConstrainedBy : ∀ id, s.linesConstrainedBy id = r.linesConstrainedBy id
  constraintsOn : ∀ line, s.constraintsOn line = r.constraintsOn line
  connectionsAt : ∀ id, s.connectionsAt id = r.connectionsAt id
  accessLinksAt : ∀ id, s.accessLinksAt id = r.accessLinksAt id
  accessPointsAt : ∀ id, s.accessPointsAt id = r.accessPointsAt id

variable {r s : Registry}

theorem entities_of_persists {kind : Kind} (plain : kind ≠ .stopArea) (persists : r.Persists s)
    {ids : List Id} (there : ∀ id ∈ ids, r.Has kind.Entry id) :
    s.entities (α := kind.Entry) ids = r.entities ids := by
  refine List.filterMap_congr fun id listed => ?_
  have known := there id listed
  rw [Has, Roster.contains_eq_isSome, Option.isSome_iff_exists] at known
  obtain ⟨a, found⟩ := known
  obtain ⟨b, later, same⟩ := persists kind id a found
  rw [found, later]
  cases kind with
  | stopArea => exact absurd rfl plain
  | _ => exact congrArg some same

/-- The answers are given from the relations, the order of the areas that list a line, and
what is registered. -/
theorem sameAnswers_of_relations (before : r.Coherent) (after : s.Coherent)
    (anchored : r.Anchored) (persists : r.Persists s) (relations : s.relations = r.relations)
    (areas : s.stopAreas = r.stopAreas)
    (holders : ∀ line, s.constrainedLines.holders line = r.constrainedLines.holders line) :
    r.SameAnswers s := by
  have ids : ∀ id, s.connectionIdsAt id = r.connectionIdsAt id := by
    intro id
    have starts : s.connectionStarts.row = r.connectionStarts.row :=
      congrArg Relations.linkStarts relations
    have ends : s.connectionEnds.row = r.connectionEnds.row :=
      congrArg Relations.linkEnds relations
    rw [connectionIdsAt, connectionIdsAt, starts, ends]
  have ofAreas : ∀ {first second : List Id}, first = second →
      s.entities (α := StopArea) first = r.entities second := by
    rintro ids _ rfl
    show ids.filterMap s.stopAreas.find? = ids.filterMap r.stopAreas.find?
    rw [areas]
  refine ⟨fun id => ?_, fun id => ofAreas ?_, fun id => ?_, fun id => ?_, fun id => ofAreas ?_,
    fun id => ?_, fun line => ofAreas (holders line), fun id => ?_, fun id => ?_, fun id => ?_⟩
  · have noted : s.nesting.noted = r.nesting.noted := congrArg (·.areas.holder) relations
    rw [after.parent?_eq, before.parent?_eq, noted, areas]
  · exact congrArg (·.areas.items id) relations
  · have rows : s.siting.row id = r.siting.row id := congrArg (·.stopPoints.items id) relations
    rw [childStopPoints, rows]
    exact @entities_of_persists r s .stopPoint (by decide) persists _ fun stop listed =>
      (anchored.siting.right id stop listed).2
  · have noted : s.siting.noted = r.siting.noted := congrArg (·.stopPoints.holder) relations
    rw [after.areaOf?_eq, before.areaOf?_eq, noted, areas]
  · exact congrArg (·.constrainedAreas id) relations
  · exact congrArg (·.constrainedLines id) relations
  · rw [connectionsAt, ids]
    exact @entities_of_persists r s .connectionLink (by decide) persists _ fun link =>
      anchored.has_of_mem_connectionIdsAt
  · have rows : s.linkedPaths.row id = r.linkedPaths.row id := congrArg (·.paths id) relations
    rw [accessLinksAt, rows]
    exact @entities_of_persists r s .accessLink (by decide) persists _ fun link listed =>
      (anchored.linkedPaths.right id link listed).2
  · have rows : s.entrances.row id = r.entrances.row id := congrArg (·.entrances id) relations
    rw [accessPointsAt, rows]
    exact @entities_of_persists r s .accessPoint (by decide) persists _ fun point listed =>
      (anchored.entrances.right id point listed).2

end Registry

/-! ## What a change does -/

theorem Effect.stopAreas {r s : Registry} {action : Action} (effect : Effect r action s)
    (ties : action.adds r.isConstraint ≠ none ∨ action.drops r.isConstraint ≠ []) :
    s.stopAreas = r.stopAreas := by
  cases effect with
  | register | retype => simp [Action.adds, Action.drops] at ties
  | _ => rfl

theorem Action.concerns_of_undo {action back : Action} (undoes : action.undo? = some back) :
    back.concerns = action.concerns := by
  cases action with
  | joinConnection | joinAccessLink | joinAccessPoint =>
    obtain ⟨id, _, rfl⟩ := Option.map_eq_some_iff.mp undoes
    rfl
  | _ => cases undoes <;> rfl

/-- A change concerns no area that lists a line, as long as its own entry is not there. -/
theorem Action.not_concerns {r s : Registry} {action : Action} {tie : Tie}
    (adds : action.adds r.isConstraint = some tie) (absent : ¬s.relations.Has tie)
    (line : Reference) :
    (s.constrainedLines.holders line).filter (fun area => !action.concerns area line) =
      s.constrainedLines.holders line := by
  refine List.filter_eq_self.mpr fun area holds => ?_
  obtain ⟨list, kept, rfl⟩ := List.mem_map.mp holds
  obtain ⟨member, lists⟩ := List.mem_filter.mp kept
  rw [Bool.not_eq_true']
  cases action with
  | constrainLine p l =>
    cases adds
    by_contra concerned
    rw [Bool.not_eq_false, concerns, Bool.and_eq_true, decide_eq_true_eq,
      decide_eq_true_eq] at concerned
    have row : s.constrainedLines.row list.holder = list.items :=
      Attachments.row_of_mem member rfl
    apply absent
    show Attachments.lists (s.constrainedLines.row (.text p)) l.reference = true
    rw [← concerned.1, ← concerned.2, row]
    exact lists
  | unconstrainLine => cases adds
  | _ => rfl

theorem Relations.Free.not_has {t : Relations} {tie : Tie} (free : t.Free tie)
    (inverse : ∀ holder item, t.areas.holder item = some holder ↔ item ∈ t.areas.items holder)
    (sited : ∀ holder item,
      t.stopPoints.holder item = some holder ↔ item ∈ t.stopPoints.items holder) :
    ¬t.Has tie := by
  cases tie with
  | child area item =>
    intro there
    rw [Free, (inverse _ _).mpr there] at free
    cases free
  | stop area item =>
    intro there
    rw [Free, (sited _ _).mpr there] at free
    cases free
  | linkStart => exact free.1
  | linkEnd => exact free.2
  | _ => exact free

theorem Effect.undone {r s : Registry} {action back : Action} {tie : Tie} (coherent : r.Coherent)
    (anchored : r.Anchored) (effect : Effect r action s) (undoes : action.undo? = some back)
    (adds : action.adds r.isConstraint = some tie) (free : r.relations.Free tie) :
    ∃ t, back.edit s = .ok () t ∧ t.relations = r.relations ∧ r.SameAnswers t := by
  obtain ⟨t, done⟩ := effect.undo_runs (effect.coherent coherent) undoes
  have after := effect.coherent coherent
  have undoing := Action.effect_of_ok after.nesting after.siting done
  have areas : s.stopAreas = r.stopAreas :=
    effect.stopAreas (Or.inl (by rw [adds]; exact Option.some_ne_none _))
  have constraints : s.isConstraint = r.isConstraint := by
    funext area
    rw [isConstraint, isConstraint, areas]
  obtain ⟨same, added, kept, nothing, dropped⟩ := Action.ties_of_undo undoes r.isConstraint
  obtain rfl := Option.some.inj (adds.symm.trans added)
  have relations : t.relations = r.relations := by
    calc
      t.relations = back.changes r.isConstraint s.relations :=
        constraints ▸ undoing.relations after
      _ = tie.undone.foldl Relations.drop s.relations := by
        rw [Action.changes, nothing, dropped]
        rfl
      _ = tie.undone.foldl Relations.drop (r.relations.add tie) := by
        rw [effect.relations coherent, Action.changes, kept, adds]
        rfl
      _ = r.relations := drop_add coherent free
  have absent := free.not_has coherent.nesting.inverse coherent.siting.inverse
  -- The tables do not tell the order of the areas that list a line. It is kept but for the area
  -- that is concerned, and that one lists the line neither before nor after.
  have holders : ∀ line, t.constrainedLines.holders line = r.constrainedLines.holders line := by
    intro line
    have back_to_s := undoing.holders line
    rw [Action.concerns_of_undo undoes] at back_to_s
    have both := back_to_s.trans (effect.holders line)
    rw [Action.not_concerns adds absent] at both
    rwa [Action.not_concerns adds (relations ▸ absent)] at both
  have some_dropped : back.drops s.isConstraint ≠ [] := by
    rw [constraints, dropped]
    cases tie <;> exact List.cons_ne_nil _ _
  exact ⟨t, done, relations, sameAnswers_of_relations coherent (undoing.coherent after) anchored
    (effect.persists.trans undoing.persists) relations
    ((undoing.stopAreas (Or.inr some_dropped)).trans areas) holders⟩

/-- Of every registry that changes lead to, and every change of it that succeeds: the relations
afterwards are those before with the one entry added or those named deleted, in order and with
the rest as it was; only the area that it is about joins or leaves the constraints on a line.
What is added is there and what is deleted is not; and if that was so before, nothing at all
has changed. To undo at once what was free before leaves every query with its answer. -/
theorem reachable_mutators {permitted : Action → Prop} {r s : Registry}
    (reached : Reachable permitted r) {action : Action} (done : action.edit r = .ok () s) :
    s.relations = action.changes r.isConstraint r.relations ∧
    (∀ line, (s.constrainedLines.holders line).filter (fun area => !action.concerns area line) =
      (r.constrainedLines.holders line).filter fun area => !action.concerns area line) ∧
    (∀ tie, action.adds r.isConstraint = some tie →
      s.relations.Has tie ∧ (r.relations.Has tie → s = r)) ∧
    (∀ tie ∈ action.drops r.isConstraint, ¬s.relations.Has tie) ∧
    (action.drops r.isConstraint ≠ [] →
      (∀ tie ∈ action.drops r.isConstraint, ¬r.relations.Has tie) → s = r) ∧
    ∀ back tie, action.undo? = some back → action.adds r.isConstraint = some tie →
      r.relations.Free tie →
      ∃ t, back.edit s = .ok () t ∧ t.relations = r.relations ∧ r.SameAnswers t := by
  have coherent := reached.coherent
  have anchored := reached.anchored
  have effect := Action.effect_of_ok coherent.nesting coherent.siting done
  refine ⟨effect.relations coherent, effect.holders, fun tie adds => ⟨effect.has coherent adds, ?_⟩,
    effect.not_has coherent anchored, effect.eq_of_absent, fun back tie undoes adds free => ?_⟩
  · exact effect.eq_of_has anchored adds
  · exact effect.undone coherent anchored undoes adds free

/-- In an interchange, the hall moves from the station to the plaza, behind the station; and if
the barrier lists it, it can be taken off its list again. -/
theorem reachable_mutators_interchange :
    (∃ s, (Action.nest (.whole "Z") (.whole "H")).edit (perform interchange {}) = .ok () s ∧
      s.relations.areas.items plaza.id = [station.id, hall.id] ∧
      s.relations.areas.items station.id = [plaza.id]) ∧
    ∃ s t, (Action.nest (.whole "B") (.whole "H")).edit (perform interchange {}) = .ok () s ∧
      (Action.unnest (.whole "B") (.whole "H")).edit s = .ok () t ∧
      (perform interchange {}).SameAnswers t := by
  have reached : Reachable (fun _ => True) (perform interchange {}) :=
    Reachable.empty.perform fun _ _ => trivial
  have placed := reached.coherent.nesting
  have constraint : (perform interchange {}).isConstraint (.whole "B") = true := by decide
  have inside : (perform interchange {}).isConstraint (.whole "Z") = false := by decide
  have unlisted : ¬(perform interchange {}).relations.Has
      (.constrainedArea (.whole "B") (.whole "H")) := by
    show ¬lists ((perform interchange {}).constrainedAreas.row barrier.id) hall.id = true
    decide
  have nests : ∀ (area : Text) (parent : StopArea),
      MayHold (perform interchange {}) area (.whole "H") parent hall →
      ∃ s, (Action.nest area (.whole "H")).edit (perform interchange {}) = .ok () s :=
    fun _ _ may => Edit.nest_ok placed may
  obtain ⟨s, moved⟩ := nests (.whole "Z") plaza ⟨rfl, rfl, by decide, by decide⟩
  obtain ⟨relations, _⟩ := reachable_mutators reached moved
  obtain ⟨u, listed⟩ := nests (.whole "B") barrier ⟨rfl, rfl, by decide, by decide⟩
  obtain ⟨_, _, _, _, _, undoes⟩ := reachable_mutators reached listed
  obtain ⟨t, done, _, same⟩ := undoes _ (.constrainedArea _ _) rfl
    (by rw [Action.adds, constraint]; rfl) unlisted
  rw [Action.changes, Action.adds, Action.drops, inside] at relations
  refine ⟨⟨s, moved, ?_, ?_⟩, u, t, listed, done, same⟩
  · rw [relations]
    decide
  · rw [relations]
    decide

end LineClosure
