import LineClosure.Calendar.Timetable
import LineClosure.Closure.Tally
import LineClosure.Registry.AreaType
import LineClosure.Registry.Roster

/-! The records of a transit network. Attributes without a rule of their own are document
values, carried as they came. A reference is a value too: it names an entity only if it
resolves in the table it points into. -/

namespace LineClosure

abbrev Reference := Value

structure Network where
  id : Id
  name : Value := .text ""
  version : Value := .int 1
  description : Value := .text ""
  registrationNumber : Value := .null
  versionDate : Option Date := none

structure Company where
  id : Id
  name : Value := .text ""
  version : Value := .int 1
  shortName : Value := .text ""
  registrationNumber : Value := .null
  phone : Value := .null
  email : Value := .null

structure GroupOfLines where
  id : Id
  name : Value := .text ""
  version : Value := .int 1
  lineIds : List Reference := []

structure StopArea where
  id : Id
  areaType : AreaType
  name : Value := .text ""
  version : Value := .int 1
  latitude : Value := .null
  longitude : Value := .null
  comment : Value := .null
  registrationNumber : Value := .null
  fareCode : Value := .null
  mobilityRestricted : Value := .bool false

structure StopPoint where
  id : Id
  routeId : Reference := .null
  position : Value := .int 0
  version : Value := .int 1

/-- A walk between two stop areas. Links and access points may be handed to the registry
more than once; the stamp tells the same record from an equal one. -/
structure ConnectionLink where
  id : Id
  startAreaId : Reference
  endAreaId : Reference
  name : Value := .text ""
  version : Value := .int 1
  duration : Value := .null
  distance : Value := .null
  stamp : Nat := 0

inductive Passage where
  | inward
  | outward
  | both
deriving DecidableEq, Inhabited

def Passage.all : List Passage := [.inward, .outward, .both]

def Passage.text : Passage → String
  | inward => "In"
  | outward => "Out"
  | both => "InOut"

structure AccessPoint where
  id : Id
  name : Value := .text ""
  version : Value := .int 1
  latitude : Value := .null
  longitude : Value := .null
  passage : Passage := .both
  stamp : Nat := 0

inductive Orientation where
  | toStopArea
  | toAccessPoint
deriving DecidableEq, Inhabited

def Orientation.all : List Orientation := [.toStopArea, .toAccessPoint]

def Orientation.text : Orientation → String
  | toStopArea => "AccessPointToStopArea"
  | toAccessPoint => "StopAreaToAccessPoint"

structure AccessLink where
  id : Id
  accessPointId : Reference
  stopAreaId : Reference
  name : Value := .text ""
  version : Value := .int 1
  orientation : Orientation := .toStopArea
  duration : Value := .null
  stamp : Nat := 0

structure VehicleJourney where
  id : Id
  journeyPatternId : Reference := .null
  name : Value := .text ""
  version : Value := .int 1
  number : Value := .null
  companyId : Reference := .null
  timetableIds : List Reference := []

structure JourneyPattern where
  id : Id
  routeId : Reference := .null
  name : Value := .text ""
  version : Value := .int 1
  publishedName : Value := .text ""
  vehicleJourneyIds : List Reference := []

structure Route where
  id : Id
  lineId : Reference := .null
  name : Value := .text ""
  version : Value := .int 1
  direction : Value := .text ""
  stopPointIds : List Reference := []
  journeyPatternIds : List Reference := []

structure Line where
  id : Id
  name : Value := .text ""
  version : Value := .int 1
  number : Value := .text ""
  publishedName : Value := .text ""
  transportMode : Value := .text ""
  networkId : Reference := .null
  companyId : Reference := .null
  groupIds : List Reference := []
  routeIds : List Reference := []
deriving DecidableEq

instance : Keyed Network := ⟨Network.id⟩
instance : Keyed Company := ⟨Company.id⟩
instance : Keyed GroupOfLines := ⟨GroupOfLines.id⟩
instance : Keyed Line := ⟨Line.id⟩
instance : Keyed Route := ⟨Route.id⟩
instance : Keyed JourneyPattern := ⟨JourneyPattern.id⟩
instance : Keyed VehicleJourney := ⟨VehicleJourney.id⟩
instance : Keyed Timetable := ⟨Timetable.id⟩
instance : Keyed StopArea := ⟨StopArea.id⟩
instance : Keyed StopPoint := ⟨StopPoint.id⟩
instance : Keyed ConnectionLink := ⟨ConnectionLink.id⟩
instance : Keyed AccessPoint := ⟨AccessPoint.id⟩
instance : Keyed AccessLink := ⟨AccessLink.id⟩

/-- The kinds of entities, in the order in which their tables are counted. -/
inductive Kind where
  | network | company | groupOfLines | line | route | journeyPattern | vehicleJourney
  | timetable | stopArea | stopPoint | connectionLink | accessPoint | accessLink
deriving DecidableEq

namespace Kind

def all : List Kind :=
  [network, company, groupOfLines, line, route, journeyPattern, vehicleJourney, timetable,
    stopArea, stopPoint, connectionLink, accessPoint, accessLink]

def text : Kind → String
  | network => "Network"
  | company => "Company"
  | groupOfLines => "GroupOfLines"
  | line => "Line"
  | route => "Route"
  | journeyPattern => "JourneyPattern"
  | vehicleJourney => "VehicleJourney"
  | timetable => "Timetable"
  | stopArea => "StopArea"
  | stopPoint => "StopPoint"
  | connectionLink => "ConnectionLink"
  | accessPoint => "AccessPoint"
  | accessLink => "AccessLink"

def tableName : Kind → String
  | network => "networks"
  | company => "companies"
  | groupOfLines => "group_of_lines"
  | line => "lines"
  | route => "routes"
  | journeyPattern => "journey_patterns"
  | vehicleJourney => "vehicle_journeys"
  | timetable => "timetables"
  | stopArea => "stop_areas"
  | stopPoint => "stop_points"
  | connectionLink => "connection_links"
  | accessPoint => "access_points"
  | accessLink => "access_links"

end Kind

/-- What can be offered to a registry. The parts of a timetable and the counts of an export
are records too, but have no table. -/
inductive Record where
  | network (n : Network)
  | company (c : Company)
  | groupOfLines (g : GroupOfLines)
  | line (l : Line)
  | route (r : Route)
  | journeyPattern (p : JourneyPattern)
  | vehicleJourney (j : VehicleJourney)
  | timetable (t : Timetable)
  | stopArea (a : StopArea)
  | stopPoint (p : StopPoint)
  | connectionLink (l : ConnectionLink)
  | accessPoint (p : AccessPoint)
  | accessLink (l : AccessLink)
  | calendarDay (d : CalendarDay)
  | period (p : Period)
  | tally (t : Tally)

end LineClosure
