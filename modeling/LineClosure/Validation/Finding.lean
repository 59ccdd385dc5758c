import LineClosure.Calendar.DateText
import LineClosure.Event

/-! What a validation finds. Defects make a network invalid, doubts do not. -/

namespace LineClosure

inductive Defect where
  | noLines
  | unknownNetwork (lineId : Id) (reference : Reference)
  | unknownCompany (lineId : Id) (reference : Reference)
  | unknownGroup (lineId : Id) (reference : Reference)
  | unknownStopPoint (routeId : Id) (reference : Reference)
  | unknownTimetable (journeyId : Id) (reference : Reference)
  | unknownOperator (journeyId : Id) (reference : Reference)
  | reversedPeriod (timetableId : Id) (period : Period)
  | badLatitude (areaId : Id) (latitude : Value)
  | badLongitude (areaId : Id) (longitude : Value)
  | unknownConnectionEnd (linkId : Id) (reference : Reference)
  | unknownAccessPoint (linkId : Id) (reference : Reference)
  | unknownLinkedArea (linkId : Id) (reference : Reference)
  | rejectedContainment (message : Text)

inductive Doubt where
  | noStopPoints (routeId : Id)
  | noTimetable (journeyId : Id)
  | emptyTimetable (timetableId : Id)
  | emptyName (areaId : Id)
  | noStopArea (stopPointId : Id)
  | negativeDuration (linkId : Id) (duration : Value)

/-- A check can also meet a value it cannot judge: a reference that is no scalar, or a
coordinate or duration that is no number. -/
inductive Finding where
  | defect (d : Defect)
  | doubt (d : Doubt)
  | unusable (v : Value)

def danglingMessage (owner : String) (id : Id) (target : String) (reference : Reference) :
    Text :=
  owner ++ " " ++ id.display ++ " references non-existent " ++ target ++ " " ++
    reference.display

def Defect.message : Defect → Text
  | noLines => "No lines found in network data"
  | unknownNetwork id reference => danglingMessage "Line" id "network" reference
  | unknownCompany id reference => danglingMessage "Line" id "company" reference
  | unknownGroup id reference => danglingMessage "Line" id "group of lines" reference
  | unknownStopPoint id reference => danglingMessage "Route" id "stop point" reference
  | unknownTimetable id reference => danglingMessage "Vehicle journey" id "timetable" reference
  | unknownOperator id reference => danglingMessage "Vehicle journey" id "company" reference
  | reversedPeriod id period =>
    "Timetable " ++ id.display ++ " has period starting after its end: " ++
      period.start.text ++ " > " ++ period.finish.text
  | badLatitude id latitude =>
    "Stop area " ++ id.display ++ " has invalid latitude: " ++ latitude.display
  | badLongitude id longitude =>
    "Stop area " ++ id.display ++ " has invalid longitude: " ++ longitude.display
  | unknownConnectionEnd id reference =>
    danglingMessage "Connection link" id "stop area" reference
  | unknownAccessPoint id reference => danglingMessage "Access link" id "access point" reference
  | unknownLinkedArea id reference => danglingMessage "Access link" id "stop area" reference
  | rejectedContainment message => "Invalid containment " ++ message

def Doubt.message : Doubt → Text
  | noStopPoints id => (Event.noStopPoints id).message
  | noTimetable id => "Vehicle journey " ++ id.display ++ " has no timetable"
  | emptyTimetable id => "Timetable " ++ id.display ++ " has no calendar day nor period"
  | emptyName id => "Stop area " ++ id.display ++ " has empty name"
  | noStopArea id => (Event.noStopArea id).message
  | negativeDuration id duration =>
    "Connection link " ++ id.display ++ " has negative duration: " ++ duration.display

end LineClosure
