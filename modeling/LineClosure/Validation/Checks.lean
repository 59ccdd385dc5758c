import LineClosure.Registry.Query
import LineClosure.Validation.Finding

/-! The validation of a network, pass by pass. The passes only report; none of them changes
the network or depends on what another one found. -/

namespace LineClosure

def checkReference [Keyed α] (table : Roster α) (reference : Reference) (defect : Defect) :
    List Finding :=
  match reference.id? with
  | none => [.unusable reference]
  | some id => if table.contains id then [] else [.defect defect]

def checkOptional [Keyed α] (table : Roster α) (reference : Reference) (defect : Defect) :
    List Finding :=
  if reference.isNull then [] else checkReference table reference defect

/-- Whether a number lies between two bounds, which belong to the range. A NaN lies in none. -/
def Value.isBetween? (v : Value) (low high : Int) : Option Bool := do
  let fromLow ← v.compareInt? low
  let toHigh ← v.compareInt? high
  return (fromLow = some .gt || fromLow = some .eq) && (toHigh = some .lt || toHigh = some .eq)

def checkCoordinate (v : Value) (bound : Int) (defect : Defect) : List Finding :=
  if v.isNull then []
  else match v.isBetween? (-bound) bound with
    | none => [.unusable v]
    | some inside => if inside then [] else [.defect defect]

def doubtIf (condition : Bool) (doubt : Doubt) : List Finding :=
  if condition then [.doubt doubt] else []

namespace Registry

def checkLine (r : Registry) (line : Line) : List Finding :=
  checkOptional r.networks line.networkId (.unknownNetwork line.id line.networkId) ++
  checkOptional r.companies line.companyId (.unknownCompany line.id line.companyId) ++
  line.groupIds.flatMap fun group =>
    checkReference r.groupsOfLines group (.unknownGroup line.id group)

def checkLines (r : Registry) : List Finding :=
  (if r.lines.members.isEmpty then [.defect .noLines] else []) ++
  r.lines.members.flatMap r.checkLine

def checkRoute (r : Registry) (route : Route) : List Finding :=
  doubtIf route.stopPointIds.isEmpty (.noStopPoints route.id) ++
  route.stopPointIds.flatMap fun stop =>
    checkReference r.stopPoints stop (.unknownStopPoint route.id stop)

def checkJourney (r : Registry) (journey : VehicleJourney) : List Finding :=
  doubtIf journey.timetableIds.isEmpty (.noTimetable journey.id) ++
  (journey.timetableIds.flatMap fun timetable =>
    checkReference r.timetables timetable (.unknownTimetable journey.id timetable)) ++
  checkOptional r.companies journey.companyId (.unknownOperator journey.id journey.companyId)

def checkPeriod (t : Timetable) (p : Period) : List Finding :=
  if p.finish < p.start then [.defect (.reversedPeriod t.id p)] else []

def checkTimetable (t : Timetable) : List Finding :=
  doubtIf t.isEmpty (.emptyTimetable t.id) ++ t.periods.flatMap (checkPeriod t)

def checkStopArea (area : StopArea) : List Finding :=
  checkCoordinate area.latitude 90 (.badLatitude area.id area.latitude) ++
  checkCoordinate area.longitude 180 (.badLongitude area.id area.longitude) ++
  doubtIf (!area.name.isTruthy) (.emptyName area.id)

def checkStopPoint (r : Registry) (stop : StopPoint) : List Finding :=
  doubtIf (r.areaOf? stop.id).isNone (.noStopArea stop.id)

/-- A duration that is missing is no doubt, nor is a NaN. -/
def checkDuration (link : ConnectionLink) : List Finding :=
  if link.duration.isNull then []
  else match link.duration.compareInt? 0 with
    | none => [.unusable link.duration]
    | some order => doubtIf (order = some .lt) (.negativeDuration link.id link.duration)

def checkConnection (r : Registry) (link : ConnectionLink) : List Finding :=
  ([link.startAreaId, link.endAreaId].flatMap fun area =>
    checkReference r.stopAreas area (.unknownConnectionEnd link.id area)) ++
  checkDuration link

def checkAccessLink (r : Registry) (link : AccessLink) : List Finding :=
  checkReference r.accessPoints link.accessPointId
    (.unknownAccessPoint link.id link.accessPointId) ++
  checkReference r.stopAreas link.stopAreaId (.unknownLinkedArea link.id link.stopAreaId)

/-- All findings in order. The messages of containments refused at loading come last. -/
def findings (r : Registry) (rejected : List Text) : List Finding :=
  r.checkLines ++
  r.routes.members.flatMap r.checkRoute ++
  r.vehicleJourneys.members.flatMap r.checkJourney ++
  r.timetables.members.flatMap checkTimetable ++
  r.stopAreas.members.flatMap checkStopArea ++
  r.stopPoints.members.flatMap r.checkStopPoint ++
  r.connectionLinks.members.flatMap r.checkConnection ++
  r.accessLinks.members.flatMap r.checkAccessLink ++
  rejected.map fun message => .defect (.rejectedContainment message)

end Registry
end LineClosure
