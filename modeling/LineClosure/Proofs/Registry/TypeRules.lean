import LineClosure.Proofs.Closure.Lineage
import LineClosure.Proofs.Registry.Containment

/-! The rules about types hold of every relation of a registry, as long as no area is given
another type. Each relation grows only by what the rules allow, and no area that is
registered is lost, so an entry that was right stays right. Going up from an area therefore
leads through at most one commercial stop point into stop places, and only stop places lie
in each other in a circle. -/

namespace LineClosure

open Keyed

namespace AreaType

/-- The types of areas that lie in each other: passengers board inside commercial stop
points, and those and stop places lie inside stop places. -/
def FitsIn (inner outer : AreaType) : Prop :=
  (inner = boardingPosition ∨ inner = quay) ∧ outer = commercialStopPoint ∨
    (inner = commercialStopPoint ∨ inner = stopPlace) ∧ outer = stopPlace

instance (inner outer : AreaType) : Decidable (inner.FitsIn outer) :=
  inferInstanceAs (Decidable (_ ∨ _))

theorem fitsIn_iff {inner outer : AreaType} :
    inner.FitsIn outer ↔ inner ∈ outer.children ∧ outer ≠ routingConstraint := by
  cases inner <;> cases outer <;> decide

theorem not_fitsIn_constraint (type : AreaType) :
    ¬routingConstraint.FitsIn type ∧ ¬type.FitsIn routingConstraint := by
  cases type <;> decide

theorem not_fitsIn_of_holdsStopPoints {inner outer : AreaType}
    (boards : outer.holdsStopPoints = true) : ¬inner.FitsIn outer := by
  rcases holdsStopPoints_iff.mp boards with rfl | rfl <;> cases inner <;> decide

/-- The types on the way up: at most one area that passengers board at, then at most one
commercial stop point, then stop places only. -/
def Rises (types : List AreaType) : Prop :=
  ∃ boarding commercial places,
    types = boarding ++ commercial ++ places ∧
    (boarding = [] ∨ boarding = [boardingPosition] ∨ boarding = [quay]) ∧
    (commercial = [] ∨ commercial = [commercialStopPoint]) ∧
    ∀ type ∈ places, type = stopPlace

theorem rises_of_places {types : List AreaType} (places : ∀ type ∈ types, type = stopPlace) :
    Rises types :=
  ⟨[], [], types, rfl, Or.inl rfl, Or.inl rfl, places⟩

theorem rises_of_commercial {types : List AreaType} (places : ∀ type ∈ types, type = stopPlace) :
    Rises (commercialStopPoint :: types) :=
  ⟨[], [commercialStopPoint], types, rfl, Or.inl rfl, Or.inr rfl, places⟩

theorem above_of_isChain {type : AreaType} {types : List AreaType}
    (chain : List.IsChain FitsIn (type :: types)) :
    ∀ above ∈ types, (above = commercialStopPoint ∨ above = stopPlace) ∧
      (type = commercialStopPoint ∨ type = stopPlace → above = stopPlace) := by
  induction types generalizing type with
  | nil => intro above there; cases there
  | cons next rest ih =>
    obtain ⟨fits, onward⟩ := List.isChain_cons_cons.mp chain
    have middle : next = commercialStopPoint ∨ next = stopPlace := fits.imp And.right And.right
    intro above there
    rcases List.mem_cons.mp there with rfl | higher
    · refine ⟨middle, fun low => ?_⟩
      rcases low with rfl | rfl <;> cases above <;> revert fits <;> decide
    · obtain ⟨either, place⟩ := ih onward above higher
      exact ⟨either, fun _ => place middle⟩

/-- The way up has the shape that the rules leave it, without its first area and, but for a
routing constraint on its own, with it. -/
theorem rises_of_isChain {type : AreaType} {types : List AreaType}
    (chain : List.IsChain FitsIn (type :: types)) :
    Rises types ∧ (type ≠ routingConstraint ∨ types ≠ [] → Rises (type :: types)) := by
  cases types with
  | nil =>
    refine ⟨rises_of_places (by simp), fun alone => ?_⟩
    cases type with
    | boardingPosition => exact ⟨[boardingPosition], [], [], by simp⟩
    | quay => exact ⟨[quay], [], [], by simp⟩
    | commercialStopPoint => exact rises_of_commercial (by simp)
    | stopPlace => exact rises_of_places (by simp)
    | routingConstraint => exact absurd alone (by simp)
  | cons next rest =>
    obtain ⟨fits, onward⟩ := List.isChain_cons_cons.mp chain
    have higher : ∀ place ∈ rest, place = stopPlace := fun place there =>
      (above_of_isChain onward place there).2 (fits.imp And.right And.right)
    rcases fits with ⟨boarding, rfl⟩ | ⟨low, rfl⟩
    · refine ⟨rises_of_commercial higher, fun _ => ?_⟩
      refine ⟨[type], [commercialStopPoint], rest, rfl, ?_, Or.inr rfl, higher⟩
      exact Or.inr (boarding.imp (congrArg ([·])) (congrArg ([·])))
    · have places : ∀ place ∈ stopPlace :: rest, place = stopPlace := by simpa using higher
      refine ⟨rises_of_places places, fun _ => ?_⟩
      rcases low with rfl | rfl
      · exact rises_of_commercial places
      · exact rises_of_places (by simpa using higher)

/-- What lies above itself is a stop place, and so is all on the way. -/
theorem places_of_isChain {type : AreaType} {types : List AreaType}
    (chain : List.IsChain FitsIn (type :: (types ++ [type]))) :
    ∀ place ∈ type :: types, place = stopPlace := by
  have above := above_of_isChain chain
  have low := (above type (by simp)).1
  intro place there
  exact (above place (by simpa [or_comm] using there)).2 low

end AreaType

def Action.KeepsTypes : Action → Prop
  | retype .. => False
  | _ => True

def Registry.HasArea (r : Registry) (id : Id) (right : AreaType → Prop) : Prop :=
  ∃ area, r.stopAreas.find? id = some area ∧ right area.areaType

namespace Effect

variable {r s : Registry} {action : Action}

theorem stopAreas_find? (effect : Effect r action s) (keeps : action.KeepsTypes) {id : Id}
    {area : StopArea} (found : r.stopAreas.find? id = some area) :
    s.stopAreas.find? id = some area := by
  cases effect with
  | @register _ _ record _ is =>
    cases record with
    | stopArea =>
      cases is
      exact (Roster.find?_insert r.stopAreas _ _).trans (by rw [found, Option.some_or])
    | calendarDay | period | tally => cases is
    | _ =>
      cases is
      exact found
  | retype => exact keeps.elim
  | _ => exact found

theorem hasArea (effect : Effect r action s) (keeps : action.KeepsTypes) {id : Id}
    {right : AreaType → Prop} (there : r.HasArea id right) : s.HasArea id right := by
  obtain ⟨area, found, fair⟩ := there
  exact ⟨area, effect.stopAreas_find? keeps found, fair⟩

theorem nesting_noted (effect : Effect r action s) {c p : Id}
    (noted : s.nesting.noted c = some p) :
    r.nesting.noted c = some p ∨
      ∃ outer inner parent child, p = .text outer ∧ c = .text inner ∧
        MayHold r outer inner parent child ∧ parent.areaType ≠ .routingConstraint := by
  cases effect with
  | register is =>
    rw [(Registry.sameRelations_withTable is r _).nesting] at noted
    exact Or.inl noted
  | nest may inside puts =>
    rcases puts.noted_cases noted with ⟨item, holder⟩ | old
    · exact Or.inr ⟨_, _, _, _, holder, item, may, inside⟩
    · exact Or.inl old
  | unnest _ _ takes => exact Or.inl (takes.noted_of_noted noted)
  | _ => exact Or.inl noted

theorem siting_noted (effect : Effect r action s) {stop p : Id}
    (noted : s.siting.noted stop = some p) :
    r.siting.noted stop = some p ∨
      r.HasArea p fun type => type.holdsStopPoints = true := by
  cases effect with
  | register is =>
    rw [(Registry.sameRelations_withTable is r _).siting] at noted
    exact Or.inl noted
  | site hasArea _ boards puts =>
    rcases puts.noted_cases noted with ⟨_, rfl⟩ | old
    · exact Or.inr ⟨_, hasArea, boards⟩
    · exact Or.inl old
  | unsite takes => exact Or.inl (takes.noted_of_noted noted)
  | _ => exact Or.inl noted

theorem mem_constrainedAreas (effect : Effect r action s) {p c : Id}
    (listed : c ∈ s.constrainedAreas.row p) :
    c ∈ r.constrainedAreas.row p ∨
      ∃ outer inner parent child, p = .text outer ∧ c = .text inner ∧
        MayHold r outer inner parent child ∧ parent.areaType = .routingConstraint := by
  cases effect with
  | register is =>
    rw [(Registry.sameRelations_withTable is r _).constrainedAreas] at listed
    exact Or.inl listed
  | nestInConstraint may constraint | constrainArea may constraint =>
    rcases Attachments.mem_row_attach listed with old | ⟨holder, item⟩
    · exact Or.inl old
    · exact Or.inr ⟨_, _, _, _, holder, item, may, constraint⟩
  | unnestFromConstraint | unconstrainArea =>
    exact Or.inl (Attachments.mem_row_detach listed)
  | _ => exact Or.inl listed

theorem mem_constrainedLines (effect : Effect r action s) {p : Id} {line : Reference}
    (listed : line ∈ s.constrainedLines.row p) :
    line ∈ r.constrainedLines.row p ∨ r.HasArea p (· = .routingConstraint) := by
  cases effect with
  | register is =>
    rw [(Registry.sameRelations_withTable is r _).constrainedLines] at listed
    exact Or.inl listed
  | constrainLine hasArea constraint =>
    rcases Attachments.mem_row_attach listed with old | ⟨rfl, _⟩
    · exact Or.inl old
    · exact Or.inr ⟨_, hasArea, constraint⟩
  | unconstrainLine => exact Or.inl (Attachments.mem_row_detach listed)
  | _ => exact Or.inl listed

end Effect

namespace Registry

/-- Every entry of a relation is between registered areas of types that the rules allow. -/
structure Typed (r : Registry) : Prop where
  nesting : ∀ c p, r.nesting.noted c = some p → ∃ child parent,
    r.stopAreas.find? c = some child ∧ r.stopAreas.find? p = some parent ∧
      child.areaType.FitsIn parent.areaType
  siting : ∀ stop p, r.siting.noted stop = some p →
    r.HasArea p fun type => type.holdsStopPoints = true
  constrainedAreas : ∀ p, ∀ c ∈ r.constrainedAreas.row p,
    r.HasArea p (· = .routingConstraint) ∧ r.HasArea c (· ≠ .routingConstraint)
  constrainedLines : ∀ p, ∀ line ∈ r.constrainedLines.row p, r.HasArea p (· = .routingConstraint)

theorem typed_empty : Typed {} where
  nesting c p noted := by cases noted
  siting stop p noted := by cases noted
  constrainedAreas p c listed := by cases listed
  constrainedLines p line listed := by cases listed

end Registry

open Registry

theorem Effect.typed {r s : Registry} {action : Action} (effect : Effect r action s)
    (keeps : action.KeepsTypes) (typed : r.Typed) : s.Typed where
  nesting c p noted := by
    rcases effect.nesting_noted noted with old | ⟨_, _, parent, child, rfl, rfl, may, inside⟩
    · obtain ⟨child, parent, hasChild, hasParent, fits⟩ := typed.nesting c p old
      exact ⟨child, parent, effect.stopAreas_find? keeps hasChild,
        effect.stopAreas_find? keeps hasParent, fits⟩
    · exact ⟨child, parent, effect.stopAreas_find? keeps may.hasChild,
        effect.stopAreas_find? keeps may.hasParent,
        AreaType.fitsIn_iff.mpr ⟨may.allowed, inside⟩⟩
  siting stop p noted := by
    rcases effect.siting_noted noted with old | new
    · exact effect.hasArea keeps (typed.siting stop p old)
    · exact effect.hasArea keeps new
  constrainedAreas p c listed := by
    rcases effect.mem_constrainedAreas listed with
      old | ⟨_, _, parent, child, rfl, rfl, may, constraint⟩
    · obtain ⟨holder, item⟩ := typed.constrainedAreas p c old
      exact ⟨effect.hasArea keeps holder, effect.hasArea keeps item⟩
    · have other : child.areaType ≠ .routingConstraint := by
        intro same
        have allowed := may.allowed
        rw [constraint, same] at allowed
        exact absurd allowed (by decide)
      exact ⟨effect.hasArea keeps ⟨parent, may.hasParent, constraint⟩,
        effect.hasArea keeps ⟨child, may.hasChild, other⟩⟩
  constrainedLines p line listed := by
    rcases effect.mem_constrainedLines listed with old | new
    · exact effect.hasArea keeps (typed.constrainedLines p line old)
    · exact effect.hasArea keeps new

theorem Reachable.typed {r : Registry} (reached : Reachable Action.KeepsTypes r) : r.Typed :=
  reached.invariant typed_empty fun _ keeps effect typed => effect.typed keeps typed

theorem Reachable.apart {permitted : Action → Prop} {r : Registry}
    (reached : Reachable permitted r) : ∀ a, r.nesting.noted a ≠ some a :=
  reached.invariant (by intro a noted; cases noted) fun _ _ effect => effect.apart

/-! ## The way up -/

theorem Placement.noted_of_holder? {p : Placement} {item holder : Id}
    (held : p.holder? item = some holder) : p.noted item = some holder := by
  unfold holder? at held
  unfold noted
  split at held
  · cases held
  · cases held
  · next there =>
    rw [there]
    exact held

namespace Registry

theorem Typed.nesting_of_constraint {r : Registry} (typed : r.Typed) (m : r.nesting.Mutual)
    {id : Id} {area : StopArea} (found : r.stopAreas.find? id = some area)
    (constraint : area.areaType = .routingConstraint) :
    r.nesting.noted id = none ∧ r.nesting.row id = [] := by
  constructor
  · cases noted : r.nesting.noted id with
    | none => rfl
    | some p =>
      obtain ⟨child, parent, hasChild, _, fits⟩ := typed.nesting id p noted
      obtain rfl := Option.some.inj (hasChild.symm.trans found)
      exact absurd (constraint ▸ fits) (AreaType.not_fitsIn_constraint _).1
  · refine List.eq_nil_iff_forall_not_mem.mpr fun c listed => ?_
    obtain ⟨child, parent, _, hasParent, fits⟩ :=
      typed.nesting c id ((m.inverse _ _).mpr listed)
    obtain rfl := Option.some.inj (hasParent.symm.trans found)
    exact absurd (constraint ▸ fits) (AreaType.not_fitsIn_constraint _).2

theorem Typed.row_nil_or {r : Registry} (typed : r.Typed) (coherent : r.Coherent) (p : Id) :
    r.nesting.row p = [] ∨ r.siting.row p = [] := by
  by_cases some : r.siting.row p = []
  · exact Or.inr some
  · refine Or.inl (List.eq_nil_iff_forall_not_mem.mpr fun c listed => ?_)
    obtain ⟨stop, there⟩ := List.exists_mem_of_ne_nil _ some
    obtain ⟨area, found, boards⟩ :=
      typed.siting stop p ((coherent.siting.inverse _ _).mpr there)
    obtain ⟨child, parent, _, hasParent, fits⟩ :=
      typed.nesting c p ((coherent.nesting.inverse _ _).mpr listed)
    obtain rfl := Option.some.inj (hasParent.symm.trans found)
    exact AreaType.not_fitsIn_of_holdsStopPoints boards fits

theorem fitsIn_of_liesIn {r : Registry} (coherent : r.Coherent) (typed : r.Typed)
    (apart : ∀ a, r.nesting.noted a ≠ some a) {a b : StopArea}
    (registered : a ∈ r.stopAreas.members) (link : r.LiesIn a b) :
    a.areaType.FitsIn b.areaType ∧ b.id ≠ a.id := by
  obtain ⟨holder, held, found⟩ := Option.bind_eq_some_iff.mp link
  have noted := Placement.noted_of_holder? held
  obtain ⟨child, parent, hasChild, hasParent, fits⟩ := typed.nesting a.id holder noted
  have itself : r.stopAreas.find? a.id = some a :=
    Roster.find?_eq_some_iff.mpr ⟨registered, rfl⟩
  obtain rfl := Option.some.inj (hasChild.symm.trans itself)
  obtain rfl := Option.some.inj (hasParent.symm.trans found)
  refine ⟨fits, fun same => apart child.id ?_⟩
  obtain ⟨h, _, rfl, _⟩ :=
    coherent.nesting.textual holder child.id ((coherent.nesting.inverse _ _).mp noted)
  have named : parent.id = .text h := Roster.key_of_find?_text found
  rw [noted, ← named, same]

theorem isChain_fitsIn {r : Registry}
    (fits : ∀ a ∈ r.stopAreas.members, ∀ b, r.LiesIn a b → a.areaType.FitsIn b.areaType)
    {a : StopArea} (registered : a ∈ r.stopAreas.members) {path : List StopArea}
    (chain : List.IsChain r.LiesIn (a :: path)) :
    List.IsChain AreaType.FitsIn (a.areaType :: path.map (·.areaType)) := by
  induction path generalizing a with
  | nil => exact .singleton _
  | cons next rest ih =>
    obtain ⟨link, onward⟩ := List.isChain_cons_cons.mp chain
    exact .cons_cons (fits a registered next link) (ih (registered_of_parent? link) onward)

end Registry

/-! ## The rules -/

/-- Without a change of types: areas lie in each other as the rules say, so routing
constraints neither lie in an area nor hold one; stop points are in areas that passengers
board at, so no area holds both areas and stop points; only routing constraints list areas
and lines, and none of the areas is a routing constraint. The way up from an area has the
shape that follows, and what lies in each other in a circle is two stop places or more. -/
theorem reachable_typeRules {r : Registry} (reached : Reachable Action.KeepsTypes r) :
    (∀ c p, r.nesting.noted c = some p → ∃ child parent,
      r.stopAreas.find? c = some child ∧ r.stopAreas.find? p = some parent ∧
        child.areaType.FitsIn parent.areaType) ∧
    (∀ id area, r.stopAreas.find? id = some area → area.areaType = .routingConstraint →
      r.nesting.noted id = none ∧ r.nesting.row id = []) ∧
    (∀ stop p, r.siting.noted stop = some p → ∃ area, r.stopAreas.find? p = some area ∧
      (area.areaType = .boardingPosition ∨ area.areaType = .quay)) ∧
    (∀ p, r.nesting.row p = [] ∨ r.siting.row p = []) ∧
    (∀ p, r.constrainedAreas.row p ≠ [] ∨ r.constrainedLines.row p ≠ [] →
      ∃ area, r.stopAreas.find? p = some area ∧ area.areaType = .routingConstraint) ∧
    (∀ p, ∀ c ∈ r.constrainedAreas.row p,
      ∃ child, r.stopAreas.find? c = some child ∧ child.areaType ≠ .routingConstraint) ∧
    (∀ a ∈ r.stopAreas.members, ∀ path, List.IsChain r.LiesIn (a :: path) →
      AreaType.Rises (path.map (·.areaType)) ∧
      (a.areaType ≠ .routingConstraint ∨ path ≠ [] →
        AreaType.Rises ((a :: path).map (·.areaType)))) ∧
    (∀ a ∈ r.stopAreas.members, ∀ path, List.IsChain r.LiesIn (a :: (path ++ [a])) →
      (∀ b ∈ a :: path, b.areaType = .stopPlace) ∧ ∃ b ∈ path, b.id ≠ a.id) := by
  have typed := reached.typed
  have coherent := reached.coherent
  have step : ∀ a ∈ r.stopAreas.members, ∀ b, r.LiesIn a b →
      a.areaType.FitsIn b.areaType ∧ b.id ≠ a.id :=
    fun a there b => fitsIn_of_liesIn coherent typed reached.apart there
  have fits := fun a there b link => (step a there b link).1
  refine ⟨typed.nesting, fun id area => typed.nesting_of_constraint coherent.nesting,
    fun stop p noted => ?_, typed.row_nil_or coherent, fun p some => ?_, fun p c listed => ?_,
    fun a there path chain => ?_, fun a there path chain => ⟨?_, ?_⟩⟩
  · obtain ⟨area, found, boards⟩ := typed.siting stop p noted
    exact ⟨area, found, AreaType.holdsStopPoints_iff.mp boards⟩
  · rcases some with areas | lines
    · obtain ⟨c, listed⟩ := List.exists_mem_of_ne_nil _ areas
      exact (typed.constrainedAreas p c listed).1
    · obtain ⟨line, listed⟩ := List.exists_mem_of_ne_nil _ lines
      exact typed.constrainedLines p line listed
  · exact (typed.constrainedAreas p c listed).2
  · obtain ⟨above, whole⟩ := AreaType.rises_of_isChain (isChain_fitsIn fits there chain)
    exact ⟨above, fun some => whole (some.imp_right (mt List.map_eq_nil_iff.mp))⟩
  · have types := isChain_fitsIn fits there chain
    rw [List.map_append] at types
    intro b member
    exact AreaType.places_of_isChain types _ (List.mem_map_of_mem member)
  · -- an area does not lie in itself, so the circle leaves it at once
    cases path with
    | nil =>
      obtain ⟨link, _⟩ := List.isChain_cons_cons.mp chain
      exact absurd rfl (step a there a link).2
    | cons next rest =>
      obtain ⟨link, _⟩ := List.isChain_cons_cons.mp chain
      exact ⟨next, List.mem_cons_self, (step a there next link).2⟩

/-! Two stop places that lie in each other, with a commercial stop point in one of them, a
platform in that, and a routing constraint that lists the platform. -/

def platform : StopArea := { id := .text (.whole "P"), areaType := .boardingPosition }

def hall : StopArea := { id := .text (.whole "H"), areaType := .commercialStopPoint }

def station : StopArea := { id := .text (.whole "S"), areaType := .stopPlace }

def plaza : StopArea := { id := .text (.whole "Z"), areaType := .stopPlace }

def barrier : StopArea := { id := .text (.whole "B"), areaType := .routingConstraint }

def interchange : List Action :=
  [.register (.stopArea platform), .register (.stopArea hall), .register (.stopArea station),
    .register (.stopArea plaza), .register (.stopArea barrier),
    .nest (.whole "S") (.whole "Z"), .nest (.whole "Z") (.whole "S"),
    .nest (.whole "S") (.whole "H"), .nest (.whole "H") (.whole "P"),
    .constrainArea (.whole "B") (.whole "P"), .nest (.whole "P") (.whole "B")]

theorem reachable_typeRules_interchange :
    List.IsChain (perform interchange {}).LiesIn [platform, hall, station, plaza, station] ∧
    AreaType.Rises ([platform, hall, station, plaza, station].map (·.areaType)) ∧
    (∀ b ∈ [station, plaza], b.areaType = .stopPlace) ∧
    (perform interchange {}).nesting.noted barrier.id = none := by
  have keeps : ∀ action ∈ interchange, action.KeepsTypes := by
    simp [interchange, Action.KeepsTypes]
  have registered : ∀ {a : StopArea}, (perform interchange {}).stopAreas.find? a.id = some a →
      a ∈ (perform interchange {}).stopAreas.members := Roster.mem_of_find?
  have around : List.IsChain (perform interchange {}).LiesIn [station, plaza, station] :=
    .cons_cons rfl (.cons_cons rfl (.singleton _))
  have chain : List.IsChain (perform interchange {}).LiesIn
      [platform, hall, station, plaza, station] := .cons_cons rfl (.cons_cons rfl around)
  obtain ⟨_, alone, _, _, _, _, rises, circle⟩ :=
    reachable_typeRules (Reachable.empty.perform keeps)
  refine ⟨chain, ?_, ?_, ?_⟩
  · exact (rises platform (registered rfl) _ chain).2 (Or.inl (by decide))
  · exact (circle station (registered rfl) [plaza] around).1
  · exact (alone barrier.id barrier rfl rfl).1

end LineClosure
