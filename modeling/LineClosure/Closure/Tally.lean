/-! Counts of what an export holds, for one line or added up over a job. They are integers, so
that a tally can also be a correction to another one. -/

namespace LineClosure

structure Tally where
  lines : Int := 0
  routes : Int := 0
  journeyPatterns : Int := 0
  vehicleJourneys : Int := 0
  stopAreas : Int := 0
  accessPoints : Int := 0
  connectionLinks : Int := 0
  timetables : Int := 0
deriving DecidableEq

namespace Tally

def add (a b : Tally) : Tally :=
  { lines := a.lines + b.lines
    routes := a.routes + b.routes
    journeyPatterns := a.journeyPatterns + b.journeyPatterns
    vehicleJourneys := a.vehicleJourneys + b.vehicleJourneys
    stopAreas := a.stopAreas + b.stopAreas
    accessPoints := a.accessPoints + b.accessPoints
    connectionLinks := a.connectionLinks + b.connectionLinks
    timetables := a.timetables + b.timetables }

instance : Add Tally := ⟨add⟩

def fields (t : Tally) : List (String × Int) :=
  [("line_count", t.lines), ("route_count", t.routes),
    ("journey_pattern_count", t.journeyPatterns),
    ("vehicle_journey_count", t.vehicleJourneys), ("stop_area_count", t.stopAreas),
    ("access_point_count", t.accessPoints), ("connection_link_count", t.connectionLinks),
    ("timetable_count", t.timetables)]

def describe (t : Tally) : String :=
  "LineStats(" ++
    String.intercalate ", " (t.fields.map fun field => field.1 ++ "=" ++ toString field.2) ++ ")"

end Tally
end LineClosure
