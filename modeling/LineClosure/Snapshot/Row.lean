import LineClosure.Failure
import LineClosure.Registry.Basic

/-! Reading the rows of a snapshot into records. Of each row only the identifiers and what
has a type of its own is looked into. Everything is taken in the order of the record's
attributes, so of two faults in a row the first one is told. -/

namespace LineClosure

abbrev Row := Value

namespace Row

def required (row : Row) (name : String) : Except Failure Value :=
  match row with
  | .object fields =>
    match fields.lookup (.whole name) with
    | some v => .ok v
    | none => .error (.missingField name)
  | _ => .error .unusableValue

def optional (row : Row) (name : String) (absent : Value := .null) : Value :=
  (row.field? name).getD absent

/-- The items of a list field; a missing one has none. -/
def items (row : Row) (name : String) : Except Failure (List Value) :=
  match (row.optional name (.list [])).elements? with
  | some found => .ok found
  | none => .error .unusableValue

def identifier (v : Value) : Except Failure Id :=
  match v.id? with
  | some id => .ok id
  | none => .error .unusableValue

def date (v : Value) : Except Failure Date :=
  match v with
  | .text s =>
    match Date.ofText? s with
    | some d => .ok d
    | none => .error (.invalidDate v)
  | _ => .error (.invalidDate v)

def choice (name : String) (all : List α) (text : α → String) (v : Value) : Except Failure α :=
  let found := match v with
    | .text s => all.find? fun a => text a = s
    | _ => none
  match found with
  | some a => .ok a
  | none => .error (.invalidChoice name v)

def version (row : Row) : Value := row.optional "version" (.int 1)
def name (row : Row) : Value := row.optional "name" (.text "")

/-- A version date that is empty counts as missing. -/
def network (row : Row) : Except Failure Network := do
  let id ← row.required "id"
  let dated := row.optional "version_date"
  let versionDate ← if dated.isTruthy then some <$> date dated else pure none
  return {
    id := ← identifier id, name := row.name, version := row.version
    description := row.optional "description" (.text "")
    registrationNumber := row.optional "registration_number", versionDate }

def company (row : Row) : Except Failure Company := do
  let id ← row.required "id"
  return {
    id := ← identifier id, name := row.name, version := row.version
    shortName := row.optional "short_name" (.text "")
    registrationNumber := row.optional "registration_number"
    phone := row.optional "phone", email := row.optional "email" }

def groupOfLines (row : Row) : Except Failure GroupOfLines := do
  let id ← row.required "id"
  let lineIds ← row.items "lines"
  return { id := ← identifier id, name := row.name, version := row.version, lineIds }

def areaType (row : Row) : Except Failure AreaType := do
  choice "AreaType" AreaType.all AreaType.text (← row.required "area_type")

/-- The texts of the area are still as long as they came. -/
def stopArea (row : Row) : Except Failure StopArea := do
  let id ← row.required "id"
  let areaType ← row.areaType
  return {
    id := ← identifier id, areaType, name := row.name, version := row.version
    latitude := row.optional "latitude", longitude := row.optional "longitude"
    comment := row.optional "comment"
    registrationNumber := row.optional "registration_number"
    fareCode := row.optional "fare_code"
    mobilityRestricted := row.optional "mobility_restricted_suitable" (.bool false) }

def stopPoint (row : Row) : Except Failure StopPoint := do
  let id ← row.required "id"
  return {
    id := ← identifier id, routeId := row.optional "route"
    position := row.optional "position" (.int 0), version := row.version }

def connectionLink (row : Row) : Except Failure ConnectionLink := do
  let id ← row.required "id"
  let startAreaId ← row.required "start"
  let endAreaId ← row.required "end"
  return {
    id := ← identifier id, startAreaId, endAreaId, name := row.name, version := row.version
    duration := row.optional "duration", distance := row.optional "distance" }

def accessPoint (row : Row) : Except Failure AccessPoint := do
  let id ← row.required "id"
  let passage ← choice "AccessPointType" Passage.all Passage.text
    (row.optional "type" (.text "InOut"))
  return {
    id := ← identifier id, name := row.name, version := row.version
    latitude := row.optional "latitude", longitude := row.optional "longitude", passage }

def accessLink (row : Row) : Except Failure AccessLink := do
  let id ← row.required "id"
  let accessPointId ← row.required "access_point"
  let stopAreaId ← row.required "stop_area"
  let orientation ← choice "LinkOrientation" Orientation.all Orientation.text
    (row.optional "orientation" (.text "AccessPointToStopArea"))
  return {
    id := ← identifier id, accessPointId, stopAreaId, name := row.name, version := row.version
    orientation, duration := row.optional "duration" }

def calendarDay (row : Row) : Except Failure CalendarDay := do
  let day ← date (← row.required "date")
  return { day, included := row.optional "included" (.bool true) }

def period (row : Row) : Except Failure Period := do
  let start ← date (← row.required "start")
  let finish ← date (← row.required "end")
  return { start, finish }

/-- The limits are computed from the days and periods, whatever the row says. -/
def timetable (row : Row) : Except Failure Timetable := do
  let id ← row.required "id"
  let dayTypes ← (← row.items "day_types").mapM (choice "DayType" DayType.all DayType.text)
  let calendarDays ← (← row.items "calendar_days").mapM calendarDay
  let periods ← (← row.items "periods").mapM period
  let t : Timetable := {
    id := ← identifier id, version := row.version
    comment := row.optional "comment" (.text ""), dayTypes, calendarDays, periods }
  return t.withLimits

/-- A number is kept as its text. The routes of the line are not among its attributes yet. -/
def line (row : Row) : Except Failure Line := do
  let id ← row.required "id"
  let groupIds ← row.items "group_of_lines"
  return {
    id := ← identifier id, name := row.name, version := row.version
    number := (row.optional "number" (.text "")).asText
    publishedName := row.optional "published_name" (.text "")
    transportMode := row.optional "transport_mode" (.text "")
    networkId := row.optional "network", companyId := row.optional "company", groupIds }

def route (row : Row) (lineId : Id) : Except Failure Route := do
  let id ← row.required "id"
  let stopPointIds ← row.items "stop_points"
  return {
    id := ← identifier id, lineId := .scalar lineId, name := row.name, version := row.version
    direction := row.optional "direction" (.text ""), stopPointIds }

def journeyPattern (row : Row) (routeId : Id) : Except Failure JourneyPattern := do
  let id ← row.required "id"
  return {
    id := ← identifier id, routeId := .scalar routeId, name := row.name
    version := row.version, publishedName := row.optional "published_name" (.text "") }

def vehicleJourney (row : Row) (patternId : Id) : Except Failure VehicleJourney := do
  let id ← row.required "id"
  let timetableIds ← row.items "timetables"
  return {
    id := ← identifier id, journeyPatternId := .scalar patternId, name := row.name
    version := row.version, number := row.optional "number"
    companyId := row.optional "company", timetableIds }

end Row
end LineClosure
