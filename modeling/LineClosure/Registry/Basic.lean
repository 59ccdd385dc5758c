import LineClosure.Registry.Attachments

/-! The registry of a transit network: a table for each kind of entity, and the relations
between stop areas and what is in them or attached to them, all by identifier. -/

namespace LineClosure

structure Registry where
  networks : Roster Network := ∅
  companies : Roster Company := ∅
  groupsOfLines : Roster GroupOfLines := ∅
  lines : Roster Line := ∅
  routes : Roster Route := ∅
  journeyPatterns : Roster JourneyPattern := ∅
  vehicleJourneys : Roster VehicleJourney := ∅
  timetables : Roster Timetable := ∅
  stopAreas : Roster StopArea := ∅
  stopPoints : Roster StopPoint := ∅
  connectionLinks : Roster ConnectionLink := ∅
  accessPoints : Roster AccessPoint := ∅
  accessLinks : Roster AccessLink := ∅
  /-- Stop areas inside stop areas. -/
  nesting : Placement := {}
  /-- Stop points inside stop areas. -/
  siting : Placement := {}
  constrainedAreas : Attachments Id := ∅
  /-- Lines need not be registered to be listed, so any reference may stand here. -/
  constrainedLines : Attachments Reference := ∅
  connectionStarts : Attachments Id := ∅
  connectionEnds : Attachments Id := ∅
  linkedPaths : Attachments Id := ∅
  entrances : Attachments Id := ∅

class Entity (α : Type) extends Keyed α where
  kind : Kind
  table : Registry → Roster α
  withTable : Registry → Roster α → Registry

instance : Entity Network := ⟨.network, (·.networks), fun r t => { r with networks := t }⟩
instance : Entity Company := ⟨.company, (·.companies), fun r t => { r with companies := t }⟩
instance : Entity GroupOfLines :=
  ⟨.groupOfLines, (·.groupsOfLines), fun r t => { r with groupsOfLines := t }⟩
instance : Entity Line := ⟨.line, (·.lines), fun r t => { r with lines := t }⟩
instance : Entity Route := ⟨.route, (·.routes), fun r t => { r with routes := t }⟩
instance : Entity JourneyPattern :=
  ⟨.journeyPattern, (·.journeyPatterns), fun r t => { r with journeyPatterns := t }⟩
instance : Entity VehicleJourney :=
  ⟨.vehicleJourney, (·.vehicleJourneys), fun r t => { r with vehicleJourneys := t }⟩
instance : Entity Timetable :=
  ⟨.timetable, (·.timetables), fun r t => { r with timetables := t }⟩
instance : Entity StopArea := ⟨.stopArea, (·.stopAreas), fun r t => { r with stopAreas := t }⟩
instance : Entity StopPoint :=
  ⟨.stopPoint, (·.stopPoints), fun r t => { r with stopPoints := t }⟩
instance : Entity ConnectionLink :=
  ⟨.connectionLink, (·.connectionLinks), fun r t => { r with connectionLinks := t }⟩
instance : Entity AccessPoint :=
  ⟨.accessPoint, (·.accessPoints), fun r t => { r with accessPoints := t }⟩
instance : Entity AccessLink :=
  ⟨.accessLink, (·.accessLinks), fun r t => { r with accessLinks := t }⟩

namespace Registry

def count (r : Registry) : Kind → Nat
  | .network => r.networks.size
  | .company => r.companies.size
  | .groupOfLines => r.groupsOfLines.size
  | .line => r.lines.size
  | .route => r.routes.size
  | .journeyPattern => r.journeyPatterns.size
  | .vehicleJourney => r.vehicleJourneys.size
  | .timetable => r.timetables.size
  | .stopArea => r.stopAreas.size
  | .stopPoint => r.stopPoints.size
  | .connectionLink => r.connectionLinks.size
  | .accessPoint => r.accessPoints.size
  | .accessLink => r.accessLinks.size

def counts (r : Registry) : List (String × Nat) :=
  Kind.all.map fun kind => (kind.tableName, r.count kind)

def lookUp [Entity α] (r : Registry) (reference : Reference) : Except Problem α :=
  match reference.id? with
  | none => .error (.unusable reference)
  | some id =>
    match (Entity.table r).find? id with
    | some a => .ok a
    | none => .error (.unknown (Entity.kind α) id)

end Registry
end LineClosure
