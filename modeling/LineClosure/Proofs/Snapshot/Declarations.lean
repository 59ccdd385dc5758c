import LineClosure.Proofs.Registry.Closed
import LineClosure.Proofs.Snapshot.Runs

/-! What a snapshot declares to be in what, and what the rules make of it. A declaration lands
in a relation or is refused, and either depends on the registered stop areas alone. -/

namespace LineClosure

theorem AreaType.childRelation_of_ne {type : AreaType} (inside : type ≠ .routingConstraint) :
    type.childRelation = .containedAreas := by
  cases type with
  | routingConstraint => exact absurd rfl inside
  | _ => rfl

theorem AreaType.childRelation_of_eq {type : AreaType} (constraint : type = .routingConstraint) :
    type.childRelation = .constrainedAreas := by
  rw [constraint]
  rfl

structure Declaration where
  relation : Relation
  holder : Reference
  item : Reference

def Declaration.edit (d : Declaration) : Edit Unit :=
  match d.relation with
  | .containedAreas => Edit.nest d.holder d.item
  | .containedStopPoints => Edit.site d.holder d.item
  | .constrainedAreas => Edit.constrainArea d.holder d.item
  | .constrainedLines => Edit.constrainLine d.holder d.item

/-- A holder with something in it. The item is in canonical form. -/
structure Containment where
  relation : Relation
  holder : Id
  item : Reference

namespace Row

/-- What a list field holds, if it is there and is a list. -/
def listed (row : Row) (name : String) : List Value := (row.items name).toOption.getD []

def parents (row : Row) : List Declaration :=
  if (row.optional "parent").isTruthy then
    [⟨.containedAreas, row.optional "parent", row.optional "id"⟩]
  else []

def sites (row : Row) : List Declaration :=
  if (row.optional "stop_area").isTruthy then
    [⟨.containedStopPoints, row.optional "stop_area", row.optional "id"⟩]
  else []

/-- One declaration for each entry, as often as it is there. -/
def constraints (row : Row) : List Declaration :=
  ((row.listed "routing_constraint_areas").map fun entry =>
      ⟨.constrainedAreas, row.optional "id", entry⟩) ++
    (row.listed "routing_constraint_lines").map fun entry =>
      ⟨.constrainedLines, row.optional "id", entry⟩

def declarations (document : Row) : List Declaration :=
  (document.listed "stop_areas").flatMap parents ++
    ((document.listed "stop_points").flatMap sites ++
      (document.listed "stop_areas").flatMap constraints)

end Row

namespace Registry

variable (r : Registry)

/-- Where an area lands in another one. In a routing constraint it is only listed. -/
def nestLanding (holder item : Reference) : Except Problem Containment := do
  let parent : StopArea ← r.lookUp holder
  let child : StopArea ← r.lookUp item
  if parent.id.equals child.id ∨ child.areaType ∉ parent.areaType.children then
    throw (.forbidden parent.areaType (.area child.areaType) parent.areaType.childRelation)
  return ⟨parent.areaType.childRelation, parent.id, canonical item⟩

/-- Where a declaration lands, or why it is refused. A stop point is registered by the row that
places it, and a line need not be. -/
def landing (d : Declaration) : Except Problem Containment :=
  match d.relation with
  | .containedAreas => r.nestLanding d.holder d.item
  | .containedStopPoints => do
    let area : StopArea ← r.lookUp d.holder
    if !area.areaType.holdsStopPoints then
      throw (.forbidden area.areaType .stopPoint .containedStopPoints)
    return ⟨.containedStopPoints, area.id, canonical d.item⟩
  | .constrainedAreas => do
    let area : StopArea ← r.lookUp d.holder
    let listed : StopArea ← r.lookUp d.item
    if area.areaType ≠ .routingConstraint then
      throw (.forbidden area.areaType (.area listed.areaType) .constrainedAreas)
    r.nestLanding d.holder d.item
  | .constrainedLines => do
    let area : StopArea ← r.lookUp d.holder
    if area.areaType ≠ .routingConstraint then
      throw (.forbidden area.areaType .line .constrainedLines)
    return ⟨.constrainedLines, area.id, canonical d.item⟩

def rejection? (d : Declaration) : Option Rejection :=
  match r.landing d with
  | .ok _ => none
  | .error problem => some ⟨d.holder, d.item, problem⟩

/-- The rules let a declaration land. -/
inductive Lands : Declaration → Containment → Prop where
  | nested {holder item : Reference} {parent child : StopArea}
    (hasParent : r.stopAreas.resolve? holder = some parent)
    (hasChild : r.stopAreas.resolve? item = some child)
    (apart : parent.id.equals child.id = false)
    (allowed : child.areaType ∈ parent.areaType.children) :
    Lands ⟨.containedAreas, holder, item⟩
      ⟨parent.areaType.childRelation, parent.id, canonical item⟩
  | sited {holder item : Reference} {area : StopArea}
    (hasArea : r.stopAreas.resolve? holder = some area)
    (boards : area.areaType.holdsStopPoints = true) :
    Lands ⟨.containedStopPoints, holder, item⟩ ⟨.containedStopPoints, area.id, canonical item⟩
  | areaListed {holder item : Reference} {area listed : StopArea}
    (hasArea : r.stopAreas.resolve? holder = some area)
    (constraint : area.areaType = .routingConstraint)
    (hasListed : r.stopAreas.resolve? item = some listed)
    (apart : area.id.equals listed.id = false)
    (allowed : listed.areaType ∈ area.areaType.children) :
    Lands ⟨.constrainedAreas, holder, item⟩ ⟨.constrainedAreas, area.id, canonical item⟩
  | lineListed {holder item : Reference} {area : StopArea}
    (hasArea : r.stopAreas.resolve? holder = some area)
    (constraint : area.areaType = .routingConstraint) :
    Lands ⟨.constrainedLines, holder, item⟩ ⟨.constrainedLines, area.id, canonical item⟩

/-- What is in what. To list a line in one spelling is to list it in all. -/
def Holds (c : Containment) : Prop :=
  match c.relation with
  | .containedAreas => ∃ id, c.item = .scalar id ∧ r.nesting.noted id = some c.holder
  | .containedStopPoints => ∃ id, c.item = .scalar id ∧ r.siting.noted id = some c.holder
  | .constrainedAreas =>
    ∃ id ∈ r.constrainedAreas.row c.holder, Value.scalar (canonical id) = c.item
  | .constrainedLines => ∃ line ∈ r.constrainedLines.row c.holder, canonical line = c.item

variable {r}

theorem lookUp_eq_ok_iff_resolve? {α : Type} [Entity α] {reference : Reference} {a : α} :
    r.lookUp reference = .ok a ↔ (Entity.table r).resolve? reference = some a := by
  rw [lookUp_eq_ok_iff, Roster.resolve?, Option.bind_eq_some_iff]

section
variable {holder item : Reference} {c : Containment}

theorem nestLanding_eq_ok_iff :
    r.nestLanding holder item = .ok c ↔
      ∃ parent child, r.stopAreas.resolve? holder = some parent ∧
        r.stopAreas.resolve? item = some child ∧ parent.id.equals child.id = false ∧
        child.areaType ∈ parent.areaType.children ∧
        c = ⟨parent.areaType.childRelation, parent.id, canonical item⟩ := by
  unfold nestLanding
  rw [except_bind_eq_ok_iff]
  constructor
  · rintro ⟨parent, hasParent, rest⟩
    obtain ⟨child, hasChild, rest⟩ := except_bind_eq_ok_iff.mp rest
    split at rest
    · cases rest
    · next may =>
      obtain ⟨apart, allowed⟩ := not_or.mp may
      cases rest
      exact ⟨parent, child, lookUp_eq_ok_iff_resolve?.mp hasParent,
        lookUp_eq_ok_iff_resolve?.mp hasChild, Bool.eq_false_iff.mpr apart,
        Decidable.not_not.mp allowed, rfl⟩
  · rintro ⟨parent, child, hasParent, hasChild, apart, allowed, rfl⟩
    refine ⟨parent, lookUp_eq_ok_iff_resolve?.mpr hasParent, ?_⟩
    refine except_bind_eq_ok_iff.mpr ⟨child, lookUp_eq_ok_iff_resolve?.mpr hasChild, ?_⟩
    rw [if_neg (by simp [apart, allowed])]
    rfl

theorem siteLanding_eq_ok_iff :
    r.landing ⟨.containedStopPoints, holder, item⟩ = .ok c ↔
      ∃ area, r.stopAreas.resolve? holder = some area ∧ area.areaType.holdsStopPoints = true ∧
        c = ⟨.containedStopPoints, area.id, canonical item⟩ := by
  constructor
  · intro lands
    obtain ⟨area, hasArea, rest⟩ := except_bind_eq_ok_iff.mp lands
    split at rest
    · cases rest
    · next boards =>
      cases rest
      exact ⟨area, lookUp_eq_ok_iff_resolve?.mp hasArea, by simpa using boards, rfl⟩
  · rintro ⟨area, hasArea, boards, rfl⟩
    refine except_bind_eq_ok_iff.mpr ⟨area, lookUp_eq_ok_iff_resolve?.mpr hasArea, ?_⟩
    rw [boards]
    rfl

theorem areaLanding_eq_ok_iff :
    r.landing ⟨.constrainedAreas, holder, item⟩ = .ok c ↔
      ∃ area, r.stopAreas.resolve? holder = some area ∧
        area.areaType = .routingConstraint ∧ r.nestLanding holder item = .ok c := by
  constructor
  · intro lands
    obtain ⟨area, hasArea, rest⟩ := except_bind_eq_ok_iff.mp lands
    obtain ⟨listed, _, rest⟩ := except_bind_eq_ok_iff.mp rest
    split at rest
    · cases rest
    · next constraint =>
      exact ⟨area, lookUp_eq_ok_iff_resolve?.mp hasArea, Decidable.not_not.mp constraint, rest⟩
  · rintro ⟨area, hasArea, constraint, nests⟩
    obtain ⟨_, listed, _, hasListed, _⟩ := nestLanding_eq_ok_iff.mp nests
    refine except_bind_eq_ok_iff.mpr ⟨area, lookUp_eq_ok_iff_resolve?.mpr hasArea, ?_⟩
    refine except_bind_eq_ok_iff.mpr ⟨listed, lookUp_eq_ok_iff_resolve?.mpr hasListed, ?_⟩
    rw [if_neg (by simp [constraint])]
    exact nests

theorem lineLanding_eq_ok_iff :
    r.landing ⟨.constrainedLines, holder, item⟩ = .ok c ↔
      ∃ area, r.stopAreas.resolve? holder = some area ∧ area.areaType = .routingConstraint ∧
        c = ⟨.constrainedLines, area.id, canonical item⟩ := by
  constructor
  · intro lands
    obtain ⟨area, hasArea, rest⟩ := except_bind_eq_ok_iff.mp lands
    split at rest
    · cases rest
    · next constraint =>
      cases rest
      exact ⟨area, lookUp_eq_ok_iff_resolve?.mp hasArea, Decidable.not_not.mp constraint, rfl⟩
  · rintro ⟨area, hasArea, constraint, rfl⟩
    refine except_bind_eq_ok_iff.mpr ⟨area, lookUp_eq_ok_iff_resolve?.mpr hasArea, ?_⟩
    rw [if_neg (by simp [constraint])]
    rfl

end

theorem landing_eq_ok_iff {d : Declaration} {c : Containment} :
    r.landing d = .ok c ↔ r.Lands d c := by
  obtain ⟨relation, holder, item⟩ := d
  cases relation with
  | containedAreas =>
    refine nestLanding_eq_ok_iff.trans ⟨?_, ?_⟩
    · rintro ⟨parent, child, hasParent, hasChild, apart, allowed, rfl⟩
      exact .nested hasParent hasChild apart allowed
    · intro lands
      cases lands with
      | nested hasParent hasChild apart allowed =>
        exact ⟨_, _, hasParent, hasChild, apart, allowed, rfl⟩
  | containedStopPoints =>
    refine siteLanding_eq_ok_iff.trans ⟨?_, ?_⟩
    · rintro ⟨area, hasArea, boards, rfl⟩
      exact .sited hasArea boards
    · intro lands
      cases lands with
      | sited hasArea boards => exact ⟨_, hasArea, boards, rfl⟩
  | constrainedAreas =>
    refine areaLanding_eq_ok_iff.trans ⟨?_, ?_⟩
    · rintro ⟨area, hasArea, constraint, nests⟩
      obtain ⟨parent, child, hasParent, hasChild, apart, allowed, rfl⟩ :=
        nestLanding_eq_ok_iff.mp nests
      obtain rfl : parent = area := Option.some.inj (hasParent.symm.trans hasArea)
      rw [AreaType.childRelation_of_eq constraint]
      exact .areaListed hasArea constraint hasChild apart allowed
    · intro lands
      cases lands with
      | areaListed hasArea constraint hasListed apart allowed =>
        refine ⟨_, hasArea, constraint, nestLanding_eq_ok_iff.mpr ?_⟩
        refine ⟨_, _, hasArea, hasListed, apart, allowed, ?_⟩
        rw [AreaType.childRelation_of_eq constraint]
  | constrainedLines =>
    refine lineLanding_eq_ok_iff.trans ⟨?_, ?_⟩
    · rintro ⟨area, hasArea, constraint, rfl⟩
      exact .lineListed hasArea constraint
    · intro lands
      cases lands with
      | lineListed hasArea constraint => exact ⟨_, hasArea, constraint, rfl⟩

theorem landing_congr {s : Registry} (same : ∀ id, s.stopAreas.find? id = r.stopAreas.find? id) :
    s.landing = r.landing := by
  have lookUps : ∀ reference, s.lookUp (α := StopArea) reference = r.lookUp reference := by
    intro reference
    unfold lookUp
    cases reference.id? with
    | none => rfl
    | some id =>
      dsimp only
      rw [show (Entity.table s).find? id = (Entity.table r).find? id from same id]
  funext d
  simp only [landing, nestLanding, lookUps]

theorem rejection?_congr {s : Registry}
    (same : ∀ id, s.stopAreas.find? id = r.stopAreas.find? id) :
    s.rejection? = r.rejection? := by
  funext d
  simp only [rejection?, landing_congr same]

end Registry

/-! ## What an applied declaration changes -/

namespace Attachments

variable {ι : Type} [DecidableEq ι] [Canonical ι]

theorem listed_attach {r : Attachments ι} {holder : Text} {item v : ι} {other : Id} :
    (∃ x ∈ (r.attach (.text holder) item).row other, canonical x = v) ↔
      (∃ x ∈ r.row other, canonical x = v) ∨ (other = .text holder ∧ v = canonical item) := by
  rw [row_attach]
  simp only [canonical_text_iff]
  by_cases here : other = .text holder
  · subst here
    rw [if_pos rfl]
    cases there : lists (r.row (.text holder)) item with
    | true =>
      rw [if_pos rfl]
      refine ⟨Or.inl, ?_⟩
      rintro (old | ⟨_, rfl⟩)
      · exact old
      · obtain ⟨x, listed, alike⟩ := List.any_eq_true.mp there
        exact ⟨x, listed, (of_decide_eq_true alike).symm⟩
    | false =>
      rw [if_neg Bool.false_ne_true]
      constructor
      · rintro ⟨x, listed, rfl⟩
        rcases List.mem_append.mp listed with old | new
        · exact Or.inl ⟨x, old, rfl⟩
        · exact Or.inr ⟨rfl, congrArg canonical (List.mem_singleton.mp new)⟩
      · rintro (⟨x, old, rfl⟩ | ⟨_, rfl⟩)
        · exact ⟨x, List.mem_append_left _ old, rfl⟩
        · exact ⟨item, List.mem_append_right _ (List.mem_singleton_self item), rfl⟩
  · rw [if_neg here]
    exact ⟨Or.inl, fun either => either.resolve_right fun both => here both.1⟩

end Attachments

namespace Placement

theorem Puts.noted_iff {p q : Placement} {holder item : Text} (puts : p.Puts holder item q)
    (nowhere : p.noted (.text item) = none) {id found : Id} :
    q.noted id = some found ↔
      p.noted id = some found ∨ (id = .text item ∧ found = .text holder) := by
  cases puts with
  | stays here => rw [nowhere] at here; cases here
  | moves _ now =>
    rw [now]
    by_cases same : id = .text item
    · rw [if_pos same, same, nowhere]
      simp [eq_comm]
    · simp [same]

theorem exists_noted_iff {p q : Placement} {holder item : Id}
    (noted : ∀ id found, q.noted id = some found ↔
      p.noted id = some found ∨ (id = item ∧ found = holder)) {held : Reference} {found : Id} :
    (∃ id, held = .scalar id ∧ q.noted id = some found) ↔
      (∃ id, held = .scalar id ∧ p.noted id = some found) ∨
        (found = holder ∧ held = .scalar item) := by
  simp only [noted]
  constructor
  · rintro ⟨id, rfl, old | ⟨rfl, rfl⟩⟩
    · exact Or.inl ⟨id, rfl, old⟩
    · exact Or.inr ⟨rfl, rfl⟩
  · rintro (⟨id, rfl, old⟩ | ⟨rfl, rfl⟩)
    · exact ⟨id, rfl, Or.inl old⟩
    · exact ⟨item, rfl, Or.inr ⟨rfl, rfl⟩⟩

end Placement

namespace Registry

variable {r : Registry}

section
variable {q : Placement} {holder item : Id}

theorem holds_nesting
    (noted : ∀ id found, q.noted id = some found ↔
      r.nesting.noted id = some found ∨ (id = item ∧ found = holder)) (e : Containment) :
    ({ r with nesting := q } : Registry).Holds e ↔
      r.Holds e ∨ e = ⟨.containedAreas, holder, .scalar item⟩ := by
  obtain ⟨relation, other, held⟩ := e
  cases relation with
  | containedAreas =>
    simp only [Holds, Containment.mk.injEq, true_and]
    exact Placement.exists_noted_iff noted
  | _ => exact (or_iff_left (by intro same; cases same)).symm

theorem holds_siting
    (noted : ∀ id found, q.noted id = some found ↔
      r.siting.noted id = some found ∨ (id = item ∧ found = holder)) (e : Containment) :
    ({ r with siting := q } : Registry).Holds e ↔
      r.Holds e ∨ e = ⟨.containedStopPoints, holder, .scalar item⟩ := by
  obtain ⟨relation, other, held⟩ := e
  cases relation with
  | containedStopPoints =>
    simp only [Holds, Containment.mk.injEq, true_and]
    exact Placement.exists_noted_iff noted
  | _ => exact (or_iff_left (by intro same; cases same)).symm

end

theorem holds_areaListed (holder item : Text) (e : Containment) :
    ({ r with constrainedAreas := r.constrainedAreas.attach (.text holder) (.text item) } :
        Registry).Holds e ↔
      r.Holds e ∨ e = ⟨.constrainedAreas, .text holder, .scalar (.text item)⟩ := by
  obtain ⟨relation, other, held⟩ := e
  cases relation with
  | constrainedAreas =>
    simp only [Holds, Containment.mk.injEq, true_and]
    constructor
    · rintro ⟨id, listed, rfl⟩
      rcases Attachments.listed_attach.mp ⟨id, listed, rfl⟩ with ⟨x, old, alike⟩ | ⟨rfl, alike⟩
      · exact Or.inl ⟨x, old, congrArg Value.scalar alike⟩
      · exact Or.inr ⟨rfl, congrArg Value.scalar alike⟩
    · rintro (⟨id, old, rfl⟩ | ⟨rfl, rfl⟩)
      · obtain ⟨x, listed, alike⟩ :=
          Attachments.listed_attach.mpr (Or.inl ⟨id, old, rfl⟩)
        exact ⟨x, listed, congrArg Value.scalar alike⟩
      · have new : ∃ x ∈ (r.constrainedAreas.attach (.text holder) (.text item)).row
            (.text holder), canonical x = canonical (Scalar.text item) :=
          Attachments.listed_attach.mpr (Or.inr ⟨rfl, rfl⟩)
        obtain ⟨x, listed, alike⟩ := new
        exact ⟨x, listed, congrArg Value.scalar alike⟩
  | _ => exact (or_iff_left (by intro same; cases same)).symm

theorem holds_lineListed (holder : Text) (line : Reference) (e : Containment) :
    ({ r with constrainedLines := r.constrainedLines.attach (.text holder) line } :
        Registry).Holds e ↔
      r.Holds e ∨ e = ⟨.constrainedLines, .text holder, canonical line⟩ := by
  obtain ⟨relation, other, held⟩ := e
  cases relation with
  | constrainedLines =>
    simp only [Holds, Containment.mk.injEq, true_and]
    exact Attachments.listed_attach
  | _ => exact (or_iff_left (by intro same; cases same)).symm

end Registry
end LineClosure
