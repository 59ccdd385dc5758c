import LineClosure.Calendar.Window
import LineClosure.Closure.Basic
import LineClosure.Event

/-! Collecting the closure of a line over a window of dates. Validity comes from below: a
vehicle journey is valid if one of its timetables has anything left in the window, and
patterns, routes and the line if something beneath them is. Only valid objects and what
they refer to are collected. -/

namespace LineClosure

structure Walk where
  closure : Closure := {}
  reduced : List (Id × Option Timetable) := []
  events : List Event := []

namespace Walk

def tell (w : Walk) (e : Event) : Walk := { w with events := w.events ++ [e] }

def change (w : Walk) (f : Closure → Closure) : Walk := { w with closure := f w.closure }

def gather [Entity α] (r : Registry) (owner : Id) (references : List Reference) (w : Walk) :
    Walk × List α :=
  references.foldl
    (fun (w, found) reference =>
      match (Entity.table (α := α) r).resolve? reference with
      | some a => (w, found ++ [a])
      | none => (w.tell (.notFound (Entity.kind α) reference owner), found))
    (w, [])

/-- Visits the entities that references name, and says whether any of them was valid. -/
def visitAll [Entity α] (r : Registry) (owner : Id) (visit : Walk → α → Walk × Bool)
    (references : List Reference) (w : Walk) : Walk × Bool :=
  references.foldl
    (fun (w, live) reference =>
      match (Entity.table (α := α) r).resolve? reference with
      | some a =>
        let (w, valid) := visit w a
        (w, live || valid)
      | none => (w.tell (.notFound (Entity.kind α) reference owner), live))
    (w, false)

/-- What the window leaves of a timetable. Each timetable is reduced once a walk. -/
def clipOnce (window : Window) (w : Walk) (t : Timetable) : Walk × Option Timetable :=
  match w.reduced.lookup t.id with
  | some known => (w, known)
  | none =>
    let left := t.clip window
    ({ w with reduced := (t.id, left) :: w.reduced }, left)

/-- What the window leaves of the timetables of a journey. Without bounds the timetables
themselves are kept, if they are not empty. -/
def survivors (r : Registry) (window : Window) (journey : VehicleJourney) (w : Walk) :
    Walk × List Timetable :=
  let (w, timetables) := gather (α := Timetable) r journey.id journey.timetableIds w
  if window.isBounded then
    timetables.foldl
      (fun (w, kept) t =>
        let (w, left) := clipOnce window w t
        (w, kept ++ left.toList))
      (w, [])
  else (w, timetables.filter fun t => !t.isEmpty)

def present (reference : Reference) : List Reference :=
  if reference.isNull then [] else [reference]

def addCompanies (r : Registry) (owner : Id) (reference : Reference) (w : Walk) : Walk :=
  let (w, companies) := gather r owner (present reference) w
  w.change fun c => { c with companies := c.companies.insertAll companies }

def visitJourney (r : Registry) (window : Window) (w : Walk) (journey : VehicleJourney) :
    Walk × Bool :=
  let (w, timetables) := survivors r window journey w
  if timetables.isEmpty then (w, false)
  else
    let w := w.change fun c =>
      { c with
        timetables := c.timetables.insertAll timetables
        vehicleJourneys := c.vehicleJourneys.insert journey }
    (addCompanies r journey.id journey.companyId w, true)

def visitPattern (r : Registry) (window : Window) (w : Walk) (pattern : JourneyPattern) :
    Walk × Bool :=
  let (w, valid) := visitAll r pattern.id (visitJourney r window) pattern.vehicleJourneyIds w
  if valid then
    (w.change fun c => { c with journeyPatterns := c.journeyPatterns.insert pattern }, true)
  else (w, false)

def addAreaOf (r : Registry) (w : Walk) (stop : StopPoint) : Walk :=
  match r.areaOf? stop.id with
  | none => w.tell (.noStopArea stop.id)
  | some area => w.change fun c => c.ascend r (r.stopAreas.size + 1) (some area)

/-- A route without a single stop point is passed over, journeys and all. -/
def visitRoute (r : Registry) (window : Window) (w : Walk) (route : Route) : Walk × Bool :=
  let (w, stops) := gather (α := StopPoint) r route.id route.stopPointIds w
  if stops.isEmpty then (w.tell (.noStopPoints route.id), false)
  else
    let (w, valid) := visitAll r route.id (visitPattern r window) route.journeyPatternIds w
    if valid then
      let w := w.change fun c =>
        { c with routes := c.routes.insert route, stopPoints := c.stopPoints.insertAll stops }
      (stops.foldl (addAreaOf r) w, true)
    else (w, false)

/-- What belongs to the line as a whole. The routing constraints on it lie outside the
containment of stop areas and are added without their surroundings. -/
def addExtras (r : Registry) (line : Line) (w : Walk) : Walk :=
  let (w, networks) := gather (α := Network) r line.id (present line.networkId) w
  let w := w.change fun c => { c with line := some line, network := networks.head? }
  let w := addCompanies r line.id line.companyId w
  let (w, groups) := gather r line.id line.groupIds w
  w.change fun c =>
    { c with
      groupsOfLines := c.groupsOfLines.insertAll groups
      stopAreas := c.stopAreas.insertAll (r.constraintsOn (.scalar line.id)) }

end Walk

structure Collection where
  valid : Bool
  closure : Closure
  events : List Event

def Registry.collect (r : Registry) (line : Line) (window : Window) : Collection :=
  let (w, valid) := Walk.visitAll r line.id (Walk.visitRoute r window) line.routeIds {}
  let w := if valid then Walk.addExtras r line w else w
  ⟨valid, w.closure, w.events⟩

/-- A reference that is no scalar can name nothing, registered or not. -/
def Event.isUnusable : Event → Bool
  | notFound _ reference _ => reference.id?.isNone
  | _ => false

/-- What was told before the first unusable reference, if the walk met one. -/
def Collection.obstructed? (c : Collection) : Option (List Event) :=
  if c.events.any Event.isUnusable then some (c.events.takeWhile fun e => !e.isUnusable) else none

end LineClosure
