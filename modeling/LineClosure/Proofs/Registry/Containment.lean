import LineClosure.Proofs.Registry.Outcomes
import LineClosure.Registry.Query

/-! What holds of every registry that changes lead to: what an item is noted to be in and the
lists of the holders are inverses of each other, for areas and for stop points alike, and no
area is in itself. -/

namespace LineClosure

open Keyed

namespace Registry

structure SameRelations (r s : Registry) : Prop where
  nesting : s.nesting = r.nesting
  siting : s.siting = r.siting
  constrainedAreas : s.constrainedAreas = r.constrainedAreas
  constrainedLines : s.constrainedLines = r.constrainedLines
  connectionStarts : s.connectionStarts = r.connectionStarts
  connectionEnds : s.connectionEnds = r.connectionEnds
  linkedPaths : s.linkedPaths = r.linkedPaths
  entrances : s.entrances = r.entrances

theorem sameRelations_withTable {α : Type} {kind : Entity α} {record : Record} {a : α}
    (is : record.entity? = some ⟨α, kind, a⟩) (r : Registry) (table : Roster α) :
    r.SameRelations (Entity.withTable r table) := by
  cases record with
  | calendarDay | period | tally => cases is
  | _ =>
    cases is
    exact ⟨rfl, rfl, rfl, rfl, rfl, rfl, rfl, rfl⟩

/-- Areas in areas and stop points in areas are placed mutually. -/
structure Coherent (r : Registry) : Prop where
  nesting : r.nesting.Mutual
  siting : r.siting.Mutual

theorem Coherent.parent?_eq {r : Registry} (coherent : r.Coherent) (id : Id) :
    r.parent? id = (r.nesting.noted id).bind r.stopAreas.find? := by
  unfold parent?
  rw [coherent.nesting.holder?_eq_noted]

theorem Coherent.areaOf?_eq {r : Registry} (coherent : r.Coherent) (id : Id) :
    r.areaOf? id = (r.siting.noted id).bind r.stopAreas.find? := by
  unfold areaOf?
  rw [coherent.siting.holder?_eq_noted]

end Registry

open Registry

theorem Effect.coherent {r s : Registry} {action : Action} (coherent : r.Coherent)
    (effect : Effect r action s) : s.Coherent := by
  cases effect with
  | register is =>
    refine ⟨?_, ?_⟩
    · rw [(sameRelations_withTable is r _).nesting]
      exact coherent.nesting
    · rw [(sameRelations_withTable is r _).siting]
      exact coherent.siting
  | nest _ _ puts => exact ⟨coherent.nesting.of_puts puts, coherent.siting⟩
  | unnest _ _ takes => exact ⟨coherent.nesting.of_takes takes, coherent.siting⟩
  | site _ _ _ puts => exact ⟨coherent.nesting, coherent.siting.of_puts puts⟩
  | unsite takes => exact ⟨coherent.nesting, coherent.siting.of_takes takes⟩
  | _ => exact ⟨coherent.nesting, coherent.siting⟩

namespace Reachable

variable {permitted : Action → Prop} {r : Registry}

theorem coherent (reached : Reachable permitted r) : r.Coherent := by
  induction reached with
  | empty => exact ⟨Placement.mutual_empty, Placement.mutual_empty⟩
  | @step r action _ _ ih =>
    rcases action.after_cases ih.nesting ih.siting with same | effect
    · rw [same]
      exact ih
    · exact effect.coherent ih

theorem invariant {P : Registry → Prop} (empty : P {})
    (kept : ∀ {r s : Registry} {action : Action}, r.Coherent → permitted action →
      Effect r action s → P r → P s)
    (reached : Reachable permitted r) : P r := by
  induction reached with
  | empty => exact empty
  | @step r action before may ih =>
    have coherent := before.coherent
    rcases action.after_cases coherent.nesting coherent.siting with same | effect
    · rw [same]
      exact ih
    · exact kept coherent may effect ih

end Reachable

/-! ## No area is in itself -/

theorem Placement.Puts.noted_cases {p q : Placement} {holder item : Text}
    (puts : p.Puts holder item q) {other found : Id} (noted : q.noted other = some found) :
    (other = .text item ∧ found = .text holder) ∨ p.noted other = some found := by
  cases puts with
  | stays => exact Or.inr noted
  | moves _ now =>
    rw [now] at noted
    split at noted
    · next same => exact Or.inl ⟨same, (Option.some.inj noted).symm⟩
    · exact Or.inr noted

theorem Placement.Takes.noted_of_noted {p q : Placement} {holder item : Text}
    (takes : p.Takes holder item q) {other found : Id} (noted : q.noted other = some found) :
    p.noted other = some found := by
  cases takes with
  | stays => exact noted
  | leaves _ now =>
    rw [now] at noted
    split at noted
    · cases noted
    · exact noted

theorem Effect.apart {r s : Registry} {action : Action} (effect : Effect r action s)
    (apart : ∀ a, r.nesting.noted a ≠ some a) : ∀ a, s.nesting.noted a ≠ some a := by
  cases effect with
  | register is =>
    rw [(sameRelations_withTable is r _).nesting]
    exact apart
  | nest may _ puts =>
    intro a noted
    rcases puts.noted_cases noted with ⟨item, holder⟩ | old
    · exact may.apart (Scalar.text.inj (holder.symm.trans item))
    · exact apart a old
  | unnest _ _ takes => exact fun a noted => apart a (takes.noted_of_noted noted)
  | _ => exact apart

/-- An item is noted to be in a holder if the holder lists it. It is listed once, and by no
other holder, and no area is in itself. -/
theorem reachable_inverse {permitted : Action → Prop} {r : Registry}
    (reached : Reachable permitted r) :
    (∀ p c, r.nesting.noted c = some p ↔ c ∈ r.nesting.row p) ∧
    (∀ p c, c ∈ r.nesting.row p →
      (r.nesting.row p).count c = 1 ∧ ∀ q, c ∈ r.nesting.row q → q = p) ∧
    (∀ a, r.nesting.noted a ≠ some a) ∧
    (∀ p c, r.siting.noted c = some p ↔ c ∈ r.siting.row p) ∧
    (∀ p c, c ∈ r.siting.row p →
      (r.siting.row p).count c = 1 ∧ ∀ q, c ∈ r.siting.row q → q = p) := by
  obtain ⟨nesting, siting⟩ := reached.coherent
  have apart : ∀ a, r.nesting.noted a ≠ some a :=
    reached.invariant (by intro a noted; cases noted) fun _ _ effect => effect.apart
  have alone : ∀ {p : Placement}, p.Mutual → ∀ holder item, item ∈ p.row holder →
      (p.row holder).count item = 1 ∧ ∀ other, item ∈ p.row other → other = holder := by
    intro p m holder item listed
    exact ⟨List.count_eq_one_of_mem (m.once holder) listed, fun other there =>
      m.holder_unique there listed⟩
  exact ⟨nesting.inverse, alone nesting, apart, siting.inverse, alone siting⟩

/-- An area moves to a second parent after the first one has become a routing constraint,
which lists the area and lets go of it again without being its parent any less. -/
def takenOver : List Action :=
  [.register (.stopArea { id := .text (.whole "A"), areaType := .stopPlace }),
    .register (.stopArea { id := .text (.whole "B"), areaType := .stopPlace }),
    .register (.stopArea { id := .text (.whole "C"), areaType := .commercialStopPoint }),
    .nest (.whole "A") (.whole "C"), .retype (.whole "A") .routingConstraint,
    .nest (.whole "A") (.whole "C"), .unnest (.whole "A") (.whole "C"),
    .nest (.whole "B") (.whole "C"), .nest (.whole "C") (.whole "C")]

theorem reachable_inverse_takenOver :
    (perform takenOver {}).nesting.noted (.text (.whole "C")) = some (.text (.whole "B")) ∧
    ((perform takenOver {}).nesting.row (.text (.whole "B"))).count (.text (.whole "C")) = 1 ∧
    ∀ q, .text (.whole "C") ∈ (perform takenOver {}).nesting.row q → q = .text (.whole "B") := by
  have reached : Reachable (fun _ => True) (perform takenOver {}) :=
    Reachable.empty.perform fun _ _ => trivial
  have noted : (perform takenOver {}).nesting.noted (.text (.whole "C")) =
      some (.text (.whole "B")) := by decide
  obtain ⟨inverse, alone, _⟩ := reachable_inverse reached
  exact ⟨noted, alone _ _ ((inverse _ _).mp noted)⟩

end LineClosure
