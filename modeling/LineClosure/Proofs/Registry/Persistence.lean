import LineClosure.Proofs.Registry.Closed
import LineClosure.Proofs.Registry.Containment

/-! Nothing that was registered is forgotten. Tables only ever take records in, and the one
change of a record is the type of an area, so whoever is found under an identifier is found
under it from then on. -/

namespace LineClosure

open Keyed

/-! ## One table a kind -/

namespace Kind

def Entry : Kind → Type
  | network => Network
  | company => Company
  | groupOfLines => GroupOfLines
  | line => Line
  | route => Route
  | journeyPattern => JourneyPattern
  | vehicleJourney => VehicleJourney
  | timetable => Timetable
  | stopArea => StopArea
  | stopPoint => StopPoint
  | connectionLink => ConnectionLink
  | accessPoint => AccessPoint
  | accessLink => AccessLink

instance : (kind : Kind) → Entity kind.Entry
  | network => inferInstanceAs (Entity Network)
  | company => inferInstanceAs (Entity Company)
  | groupOfLines => inferInstanceAs (Entity GroupOfLines)
  | line => inferInstanceAs (Entity Line)
  | route => inferInstanceAs (Entity Route)
  | journeyPattern => inferInstanceAs (Entity JourneyPattern)
  | vehicleJourney => inferInstanceAs (Entity VehicleJourney)
  | timetable => inferInstanceAs (Entity Timetable)
  | stopArea => inferInstanceAs (Entity StopArea)
  | stopPoint => inferInstanceAs (Entity StopPoint)
  | connectionLink => inferInstanceAs (Entity ConnectionLink)
  | accessPoint => inferInstanceAs (Entity AccessPoint)
  | accessLink => inferInstanceAs (Entity AccessLink)

/-- One record before and after. Only areas can differ, and they only in their type. -/
def Remains : (kind : Kind) → kind.Entry → kind.Entry → Prop
  | stopArea, before, after => ∃ type, after = { before with areaType := type }
  | _, before, after => after = before

theorem remains_refl (kind : Kind) (a : kind.Entry) : kind.Remains a a := by
  cases kind with
  | stopArea => exact ⟨StopArea.areaType a, rfl⟩
  | _ => exact rfl

theorem Remains.trans {kind : Kind} {a b c : kind.Entry} (first : kind.Remains a b)
    (second : kind.Remains b c) : kind.Remains a c := by
  cases kind with
  | stopArea =>
    obtain ⟨_, rfl⟩ := first
    obtain ⟨type, rfl⟩ := second
    exact ⟨type, rfl⟩
  | _ => exact Eq.trans second first

end Kind

namespace Registry

/-- Whoever is registered stays registered under the same identifier. -/
def Persists (r s : Registry) : Prop :=
  ∀ (kind : Kind) (id : Id) (a : kind.Entry), (Entity.table r).find? id = some a →
    ∃ b, (Entity.table s).find? id = some b ∧ kind.Remains a b

variable {r s : Registry}

theorem persists_refl (r : Registry) : r.Persists r :=
  fun kind _ a found => ⟨a, found, kind.remains_refl a⟩

theorem Persists.trans {t : Registry} (first : r.Persists s) (second : s.Persists t) :
    r.Persists t := by
  intro kind id a found
  obtain ⟨b, there, same⟩ := first kind id a found
  obtain ⟨c, later, still⟩ := second kind id b there
  exact ⟨c, later, same.trans still⟩

theorem persists_of_tables
    (same : ∀ kind : Kind, Entity.table (α := kind.Entry) s = Entity.table r) : r.Persists s :=
  fun kind _ a found => ⟨a, (same kind).symm ▸ found, kind.remains_refl a⟩

end Registry

namespace Roster

theorem find?_insert_of_found {α : Type} [Keyed α] {r : Roster α} {id : Id} {a : α}
    (found : r.find? id = some a) (b : α) : (r.insert b).find? id = some a := by
  rw [find?_insert, found, Option.some_or]

theorem find?_of_adopts {α : Type} [Keyed α] {stamp : α → Nat} {r s : Roster α} {b : α}
    (adopts : Adopts stamp r b s) {id : Id} {a : α} (found : r.find? id = some a) :
    s.find? id = some a := by
  cases adopts with
  | known => exact found
  | enters => exact find?_insert_of_found found b

theorem contains_of_adopts {α : Type} [Keyed α] {stamp : α → Nat} {r s : Roster α} {a : α}
    (adopts : Adopts stamp r a s) : s.contains (key a) = true := by
  cases adopts with
  | known found => rw [contains_eq_isSome, found, Option.isSome_some]
  | enters => exact contains_insert_self r a

theorem find?_amend_of_found {α : Type} [Keyed α] {r : Roster α} {other : Id} {a : α}
    (found : r.find? other = some a) (id : Id) (change : α → α)
    (keeps : ∀ a, key (change a) = key a) :
    ∃ b, (r.amend id change keeps).find? other = some b ∧ (b = change a ∨ b = a) := by
  refine ⟨_, by rw [find?_amend, found, Option.map_some], ?_⟩
  split
  · exact Or.inl rfl
  · exact Or.inr rfl

end Roster

namespace Registry

variable {r : Registry}

theorem persists_withTable {α : Type} {kind : Entity α} (record : Record) {a : α}
    (is : record.entity? = some ⟨α, kind, a⟩) {table : Roster α}
    (grows : ∀ id b, (Entity.table r).find? id = some b → table.find? id = some b) :
    r.Persists (Entity.withTable r table) := by
  intro other id b found
  have still : (Entity.table (Entity.withTable r table)).find? id = some b := by
    cases record with
    | calendarDay | period | tally => cases is
    | _ =>
      cases is
      cases other <;> first | exact found | exact grows id b found
  exact ⟨b, still, other.remains_refl b⟩

theorem persists_retype (r : Registry) (id : Id) (type : AreaType) :
    r.Persists { r with
      stopAreas := r.stopAreas.amend id (fun a => { a with areaType := type }) fun _ => rfl } := by
  intro kind other a found
  cases kind with
  | stopArea =>
    obtain ⟨b, there, rfl | rfl⟩ := Roster.find?_amend_of_found (r := r.stopAreas) found id
      (fun a => { a with areaType := type }) fun _ => rfl
    · exact ⟨_, there, type, rfl⟩
    · exact ⟨_, there, Kind.remains_refl .stopArea _⟩
  | _ => exact ⟨a, found, Kind.remains_refl _ a⟩

end Registry

open Registry

/-- What a change does, it does to the relations, but for the records it takes in and the
type it gives an area. -/
theorem Effect.persists {r s : Registry} {action : Action} (effect : Effect r action s) :
    r.Persists s := by
  have beside : ∀ {t u : Registry}, r.Persists t →
      (∀ kind : Kind, Entity.table (α := kind.Entry) u = Entity.table t) → r.Persists u :=
    fun first same => first.trans (persists_of_tables same)
  cases effect with
  | register is =>
    exact persists_withTable _ is fun id b found => Roster.find?_insert_of_found found _
  | @joinStart _ _ link _ _ adopts | @joinFinish _ _ link _ _ adopts =>
    have entered := persists_withTable (.connectionLink link) rfl fun id b found =>
      Roster.find?_of_adopts adopts found
    exact beside entered fun kind => by cases kind <;> rfl
  | @joinAccessLink _ _ link _ _ adopts =>
    have entered := persists_withTable (.accessLink link) rfl fun id b found =>
      Roster.find?_of_adopts adopts found
    exact beside entered fun kind => by cases kind <;> rfl
  | @joinAccessPoint _ _ point _ _ adopts =>
    have entered := persists_withTable (.accessPoint point) rfl fun id b found =>
      Roster.find?_of_adopts adopts found
    exact beside entered fun kind => by cases kind <;> rfl
  | retype => exact persists_retype r _ _
  | _ => exact persists_of_tables fun kind => by cases kind <;> rfl

theorem Action.persists {r : Registry} (coherent : r.Coherent) (action : Action) :
    r.Persists (action.after r) := by
  rcases action.after_cases coherent.nesting coherent.siting with same | effect
  · rw [same]
    exact persists_refl r
  · exact effect.persists

theorem Reachable.persists {permitted : Action → Prop} {r : Registry}
    (reached : Reachable permitted r) {actions : List Action}
    (may : ∀ action ∈ actions, permitted action) :
    r.Persists (LineClosure.perform actions r) := by
  induction actions generalizing r with
  | nil => exact persists_refl r
  | cons action rest ih =>
    have first := action.persists reached.coherent
    have next := reached.step (may action List.mem_cons_self)
    exact first.trans (ih next fun other later => may other (List.mem_cons_of_mem _ later))

end LineClosure
