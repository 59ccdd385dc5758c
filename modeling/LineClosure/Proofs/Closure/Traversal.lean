import LineClosure.Closure.Collection
import LineClosure.Proofs.Closure.Ascent

/-! What a line reaches over a window, read off the registry by plain traversal: no state, no
order of validity, every repetition kept. A walk through the line adds exactly this haul. -/

namespace LineClosure

/-- What a window leaves of a timetable. Without bounds a timetable stays as it is, unless
it is empty. -/
def Timetable.within? (t : Timetable) (window : Window) : Option Timetable :=
  if window.isBounded then t.clip window else if t.isEmpty then none else some t

namespace Registry

/-- The entities that references name, in order. References that name none are passed over. -/
def named (α : Type) [Entity α] (r : Registry) (references : List Reference) : List α :=
  references.filterMap (Entity.table r).resolve?

theorem mem_named_iff {α : Type} [Entity α] {r : Registry} {references : List Reference} {a : α} :
    a ∈ r.named α references ↔
      a ∈ (Entity.table r).members ∧
        ∃ reference ∈ references, ∃ id, reference.id? = some id ∧ identity a = canonical id := by
  simp only [named, List.mem_filterMap, Roster.resolve?, Option.bind_eq_some_iff,
    Roster.find?_eq_some_iff]
  constructor
  · intro found
    obtain ⟨reference, given, id, usable, registered, same⟩ := found
    exact ⟨registered, reference, given, id, usable, same⟩
  · intro found
    obtain ⟨registered, reference, given, id, usable, same⟩ := found
    exact ⟨reference, given, id, usable, registered, same⟩

section
variable (r : Registry) (window : Window)

def isValidJourney (journey : VehicleJourney) : Bool :=
  (r.named Timetable journey.timetableIds).any fun t => (t.within? window).isSome

def isValidPattern (pattern : JourneyPattern) : Bool :=
  (r.named VehicleJourney pattern.vehicleJourneyIds).any (r.isValidJourney window)

/-- A live route has a registered stop point and a valid pattern. -/
def isLive (route : Route) : Bool :=
  !(r.named StopPoint route.stopPointIds).isEmpty &&
    (r.named JourneyPattern route.journeyPatternIds).any (r.isValidPattern window)

def timetablesOf (journey : VehicleJourney) : List Timetable :=
  (r.named Timetable journey.timetableIds).filterMap fun t => t.within? window

def journeysOf (pattern : JourneyPattern) : List VehicleJourney :=
  (r.named VehicleJourney pattern.vehicleJourneyIds).filter (r.isValidJourney window)

def patternsOf (route : Route) : List JourneyPattern :=
  (r.named JourneyPattern route.journeyPatternIds).filter (r.isValidPattern window)

/-- The areas that the stop points of a route are in, each with all that it lies in. -/
def areasOf (route : Route) : List StopArea :=
  (r.named StopPoint route.stopPointIds).flatMap fun stop =>
    (r.areaOf? stop.id).toList.flatMap r.lineage

def liveRoutes (line : Line) : List Route :=
  (r.named Route line.routeIds).filter (r.isLive window)

def validPatterns (line : Line) : List JourneyPattern :=
  (r.liveRoutes window line).flatMap (r.patternsOf window)

def validJourneys (line : Line) : List VehicleJourney :=
  (r.validPatterns window line).flatMap (r.journeysOf window)

def runningTimetables (line : Line) : List Timetable :=
  (r.validJourneys window line).flatMap (r.timetablesOf window)

def calledStopPoints (line : Line) : List StopPoint :=
  (r.liveRoutes window line).flatMap fun route => r.named StopPoint route.stopPointIds

def calledAreas (line : Line) : List StopArea :=
  (r.liveRoutes window line).flatMap r.areasOf

end

theorem isValidJourney_eq (r : Registry) (window : Window) (journey : VehicleJourney) :
    r.isValidJourney window journey = !(r.timetablesOf window journey).isEmpty := by
  rw [isValidJourney, timetablesOf, Bool.eq_iff_iff, Bool.not_eq_true', List.isEmpty_eq_false_iff,
    List.any_eq_true, Ne, List.filterMap_eq_nil_iff]
  simp [Option.isSome_iff_ne_none]

def missing (α : Type) [Entity α] (r : Registry) (owner : Id) (references : List Reference) :
    List Event :=
  references.filterMap fun reference =>
    match (Entity.table (α := α) r).resolve? reference with
    | some _ => none
    | none => some (.notFound (Entity.kind α) reference owner)

end Registry

/-- What a part of a walk adds to a closure, and what it tells. -/
structure Haul where
  routes : List Route := []
  journeyPatterns : List JourneyPattern := []
  vehicleJourneys : List VehicleJourney := []
  timetables : List Timetable := []
  stopPoints : List StopPoint := []
  stopAreas : List StopArea := []
  companies : List Company := []
  events : List Event := []

namespace Haul

def append (h k : Haul) : Haul :=
  { routes := h.routes ++ k.routes
    journeyPatterns := h.journeyPatterns ++ k.journeyPatterns
    vehicleJourneys := h.vehicleJourneys ++ k.vehicleJourneys
    timetables := h.timetables ++ k.timetables
    stopPoints := h.stopPoints ++ k.stopPoints
    stopAreas := h.stopAreas ++ k.stopAreas
    companies := h.companies ++ k.companies
    events := h.events ++ k.events }

instance : Append Haul := ⟨append⟩

theorem append_def (h k : Haul) : h ++ k = append h k := rfl

@[simp] theorem append_empty (h : Haul) : h ++ ({} : Haul) = h := by
  simp [append_def, append]

theorem append_assoc (h k l : Haul) : h ++ k ++ l = h ++ (k ++ l) := by
  simp [append_def, append, List.append_assoc]

end Haul

def Closure.absorb (r : Registry) (c : Closure) (h : Haul) : Closure :=
  { c.withAreas r h.stopAreas with
    routes := c.routes.insertAll h.routes
    journeyPatterns := c.journeyPatterns.insertAll h.journeyPatterns
    vehicleJourneys := c.vehicleJourneys.insertAll h.vehicleJourneys
    timetables := c.timetables.insertAll h.timetables
    stopPoints := c.stopPoints.insertAll h.stopPoints
    companies := c.companies.insertAll h.companies }

theorem Closure.absorb_append (r : Registry) (c : Closure) (h k : Haul) :
    c.absorb r (h ++ k) = (c.absorb r h).absorb r k := by
  simp only [Closure.absorb, Haul.append_def, Haul.append, Closure.withAreas_append,
    Roster.insertAll_append]
  rfl

namespace Registry

def haulAll {α : Type} [Entity α] (r : Registry) (owner : Id) (haul : α → Haul) :
    List Reference → Haul
  | [] => {}
  | reference :: rest =>
    (match (Entity.table (α := α) r).resolve? reference with
      | some a => haul a
      | none => { events := [.notFound (Entity.kind α) reference owner] }) ++
    r.haulAll owner haul rest

section
variable (r : Registry) (window : Window)

def journeyHaul (journey : VehicleJourney) : Haul :=
  let told : Haul := { events := r.missing Timetable journey.id journey.timetableIds }
  let company := Walk.present journey.companyId
  if r.isValidJourney window journey then
    told ++ { vehicleJourneys := [journey], timetables := r.timetablesOf window journey } ++
      { events := r.missing Company journey.id company } ++
      { companies := r.named Company company }
  else told

def patternHaul (pattern : JourneyPattern) : Haul :=
  r.haulAll pattern.id (r.journeyHaul window) pattern.vehicleJourneyIds ++
    if r.isValidPattern window pattern then { journeyPatterns := [pattern] } else {}

def stray (stops : List StopPoint) : List Event :=
  (stops.filter fun stop => (r.areaOf? stop.id).isNone).map fun stop => .noStopArea stop.id

def routeHaul (route : Route) : Haul :=
  let stops := r.named StopPoint route.stopPointIds
  let told : Haul := { events := r.missing StopPoint route.id route.stopPointIds }
  if stops.isEmpty then told ++ { events := [.noStopPoints route.id] }
  else
    let tried := told ++ r.haulAll route.id (r.patternHaul window) route.journeyPatternIds
    if r.isLive window route then
      tried ++ { routes := [route], stopPoints := stops } ++
        { stopAreas := r.areasOf route, events := r.stray stops }
    else tried

def lineHaul (line : Line) : Haul := r.haulAll line.id (r.routeHaul window) line.routeIds

end

end Registry
end LineClosure
