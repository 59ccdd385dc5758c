import LineClosure.Closure.Tally
import LineClosure.Registry.Query

/-! The closure of a line: the entities a producer needs to export it, each once, in the
order in which they were met. -/

namespace LineClosure

structure Closure where
  line : Option Line := none
  network : Option Network := none
  routes : Roster Route := ∅
  journeyPatterns : Roster JourneyPattern := ∅
  vehicleJourneys : Roster VehicleJourney := ∅
  timetables : Roster Timetable := ∅
  stopPoints : Roster StopPoint := ∅
  stopAreas : Roster StopArea := ∅
  stopPlaces : Roster StopArea := ∅
  commercialStopPoints : Roster StopArea := ∅
  boardingPositions : Roster StopArea := ∅
  quays : Roster StopArea := ∅
  connectionLinks : Roster ConnectionLink := ∅
  accessPoints : Roster AccessPoint := ∅
  accessLinks : Roster AccessLink := ∅
  companies : Roster Company := ∅
  groupsOfLines : Roster GroupOfLines := ∅

namespace Closure

def tally (c : Closure) : Tally :=
  { lines := if c.line.isSome then 1 else 0
    routes := c.routes.size
    journeyPatterns := c.journeyPatterns.size
    vehicleJourneys := c.vehicleJourneys.size
    stopAreas := c.stopAreas.size
    accessPoints := c.accessPoints.size
    connectionLinks := c.connectionLinks.size
    timetables := c.timetables.size }

def idSets (c : Closure) : List (String × List Id) :=
  [("routes", c.routes.ids), ("journey_patterns", c.journeyPatterns.ids),
    ("vehicle_journeys", c.vehicleJourneys.ids), ("stop_points", c.stopPoints.ids),
    ("stop_areas", c.stopAreas.ids), ("stop_places", c.stopPlaces.ids),
    ("commercial_stop_points", c.commercialStopPoints.ids),
    ("boarding_positions", c.boardingPositions.ids), ("quays", c.quays.ids),
    ("connection_links", c.connectionLinks.ids), ("access_points", c.accessPoints.ids),
    ("access_links", c.accessLinks.ids), ("companies", c.companies.ids),
    ("group_of_lines", c.groupsOfLines.ids)]

/-- Sorts an area into the set of its type. Routing constraints have no set of their own. -/
def classify (c : Closure) (area : StopArea) : Closure :=
  match area.areaType with
  | .stopPlace => { c with stopPlaces := c.stopPlaces.insert area }
  | .commercialStopPoint => { c with commercialStopPoints := c.commercialStopPoints.insert area }
  | .boardingPosition => { c with boardingPositions := c.boardingPositions.insert area }
  | .quay => { c with quays := c.quays.insert area }
  | .routingConstraint => c

/-- Adds an area with the links and access points attached to it. The far ends of the links
are not followed. -/
def addArea (r : Registry) (c : Closure) (area : StopArea) : Closure :=
  let c := { c with stopAreas := c.stopAreas.insert area }.classify area
  { c with
    connectionLinks := c.connectionLinks.insertAll (r.connectionsAt area.id)
    accessPoints := c.accessPoints.insertAll (r.accessPointsAt area.id)
    accessLinks := c.accessLinks.insertAll (r.accessLinksAt area.id) }

/-- Adds an area and what it lies in, up to the first area that is there already: what that
one lies in is there too. Every step adds an area, so as many steps as areas are enough. -/
def ascend (r : Registry) : Nat → Closure → Option StopArea → Closure
  | 0, c, _ => c
  | _ + 1, c, none => c
  | steps + 1, c, some area =>
    if c.stopAreas.contains area.id then c
    else ascend r steps (addArea r c area) (r.parent? area.id)

end Closure
end LineClosure
