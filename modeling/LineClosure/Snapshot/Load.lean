import LineClosure.Registry.Edit
import LineClosure.Registry.TextLimit
import LineClosure.Snapshot.Row

/-! Loading a snapshot into a registry, section by section. Containments go through the
rules of the registry; those it refuses are noted and passed over, while any other refusal
ends the loading. Parents are applied once all areas are there, and routing constraints
once the lines are, so that the order of the rows within a section does not matter. -/

namespace LineClosure

/-- What loading has built and noted so far. -/
structure Loading where
  registry : Registry := {}
  rejected : List Rejection := []
  events : List Event := []

abbrev Load := EStateM Failure Loading

namespace Load

def tell (e : Event) : Load Unit := modify fun s => { s with events := s.events ++ [e] }

def check (x : Except Failure α) : Load α :=
  match x with
  | .ok a => pure a
  | .error failure => throw failure

def apply (edit : Edit α) : Load α := fun s =>
  match edit s.registry with
  | .ok a r => .ok a { s with registry := r }
  | .error problem r => .error (.refused problem) { s with registry := r }

def reject (rejection : Rejection) : Load Unit := do
  tell (.containmentRejected rejection)
  modify fun s => { s with rejected := s.rejected ++ [rejection] }

def contain (edit : Edit Unit) (holder item : Reference) : Load Unit := fun s =>
  match edit s.registry with
  | .ok _ r => .ok () { s with registry := r }
  | .error problem r =>
    match problem with
    | .forbidden .. | .unknown .. =>
      reject ⟨holder, item, problem⟩ { s with registry := r }
    | _ => .error (.refused problem) { s with registry := r }

def table (document : Row) (name : String) (enter : Row → Load Unit) : Load Unit := do
  (← check (document.items name)).forM enter

/-- The texts are cut, and that is told, even if the row then turns out to be unusable. -/
def enterStopArea (row : Row) : Load Unit := do
  let owner ← check (row.required "id")
  let _ ← check row.areaType
  let (told, fitted) := fitTexts owner (row.optional "comment") (row.optional "registration_number")
  told.forM tell
  match fitted with
  | none => throw .unusableValue
  | some (comment, registrationNumber) =>
    apply (Edit.enter { ← check row.stopArea with comment, registrationNumber })

def enterParent (row : Row) : Load Unit := do
  let parent := row.optional "parent"
  if parent.isTruthy then
    let child ← check (row.required "id")
    contain (Edit.nest parent child) parent child

def stopAreas (document : Row) : Load Unit := do
  table document "stop_areas" enterStopArea
  table document "stop_areas" enterParent

def enterStopPoint (row : Row) : Load Unit := do
  let stop ← check row.stopPoint
  apply (Edit.enter stop)
  let area := row.optional "stop_area"
  if area.isTruthy then contain (Edit.site area (.scalar stop.id)) area (.scalar stop.id)

def attach (kind : Kind) (id : Id) (area : Reference) (edit : Edit Unit) : Load Unit := do
  let areaId ← check (Row.identifier area)
  if (← get).registry.stopAreas.contains areaId then apply edit
  else tell (.linkToUnknownArea kind id area)

def enterConnectionLink (row : Row) : Load Unit := do
  let link ← check row.connectionLink
  apply (Edit.enter link)
  attach .connectionLink link.id link.startAreaId
    (Edit.joinConnection link.startAreaId link .start)
  attach .connectionLink link.id link.endAreaId (Edit.joinConnection link.endAreaId link .finish)

/-- An access point need not be at any area. -/
def enterAccessPoint (row : Row) : Load Unit := do
  let point ← check row.accessPoint
  apply (Edit.enter point)
  let area := row.optional "stop_area"
  let areaId ← check (Row.identifier area)
  if area.isTruthy || (← get).registry.stopAreas.contains areaId then
    attach .accessPoint point.id area (Edit.joinAccessPoint area point)

def enterAccessLink (row : Row) : Load Unit := do
  let link ← check row.accessLink
  apply (Edit.enter link)
  attach .accessLink link.id link.stopAreaId (Edit.joinAccessLink link.stopAreaId link)

def enterVehicleJourney (patternId : Id) (row : Row) : Load Id := do
  let journey ← check (row.vehicleJourney patternId)
  apply (Edit.enter journey)
  return journey.id

def enterJourneyPattern (routeId : Id) (row : Row) : Load Id := do
  let pattern ← check (row.journeyPattern routeId)
  apply (Edit.enter pattern)
  let ids ← (← check (row.items "vehicle_journeys")).mapM (enterVehicleJourney pattern.id)
  modify fun s =>
    let amended := s.registry.journeyPatterns.amend pattern.id
      (fun p => { p with vehicleJourneyIds := ids.map .scalar }) fun _ => rfl
    { s with registry.journeyPatterns := amended }
  return pattern.id

/-- The first route that calls at a stop point becomes its route, if it has none. -/
def claimStop (routeId : Id) (reference : Reference) : Load Unit := do
  let stopId ← check (Row.identifier reference)
  modify fun s =>
    let amended := s.registry.stopPoints.amend stopId
      (fun p => { p with routeId := if p.routeId.isNull then .scalar routeId else p.routeId })
      fun _ => rfl
    { s with registry.stopPoints := amended }

def enterRoute (lineId : Id) (row : Row) : Load Id := do
  let route ← check (row.route lineId)
  apply (Edit.enter route)
  route.stopPointIds.forM (claimStop route.id)
  let ids ← (← check (row.items "journey_patterns")).mapM (enterJourneyPattern route.id)
  modify fun s =>
    let amended := s.registry.routes.amend route.id
      (fun r => { r with journeyPatternIds := ids.map .scalar }) fun _ => rfl
    { s with registry.routes := amended }
  return route.id

/-- A line comes with its routes, patterns and journeys nested in its row. -/
def enterLine (row : Row) : Load Unit := do
  let line ← check row.line
  apply (Edit.enter line)
  let ids ← (← check (row.items "routes")).mapM (enterRoute line.id)
  modify fun s =>
    let amended := s.registry.lines.amend line.id
      (fun l => { l with routeIds := ids.map .scalar }) fun _ => rfl
    { s with registry.lines := amended }

def enterConstrainedArea (row : Row) (entry : Reference) : Load Unit := do
  let holder ← check (row.required "id")
  contain (Edit.constrainArea holder entry) holder entry

def enterConstrainedLine (row : Row) (entry : Reference) : Load Unit := do
  let holder ← check (row.required "id")
  contain (Edit.constrainLine holder entry) holder entry

def enterConstraints (row : Row) : Load Unit := do
  (← check (row.items "routing_constraint_areas")).forM (enterConstrainedArea row)
  (← check (row.items "routing_constraint_lines")).forM (enterConstrainedLine row)

def sections (document : Row) : Load Unit := do
  table document "networks" fun row => do apply (Edit.enter (← check row.network))
  table document "companies" fun row => do apply (Edit.enter (← check row.company))
  table document "group_of_lines" fun row => do apply (Edit.enter (← check row.groupOfLines))
  stopAreas document
  table document "stop_points" enterStopPoint
  table document "connection_links" enterConnectionLink
  table document "access_points" enterAccessPoint
  table document "access_links" enterAccessLink
  table document "timetables" fun row => do apply (Edit.enter (← check row.timetable))
  table document "lines" enterLine
  table document "stop_areas" enterConstraints
  let rejected := (← get).rejected
  if !rejected.isEmpty then tell (.containmentsRejected rejected.length)

end Load

namespace Snapshot

def document (files : FileTree) (path : Text) : Except Failure Value := do
  let bytes ← match files.read path with
    | .ok bytes => pure bytes
    | .error .tooLong => throw (.storage ⟨.tooLong, FileTree.pathText path⟩)
    | .error _ => throw (.fileNotFound path)
  let text ← (Utf8.decode bytes).mapError Failure.notUtf8
  match Document.parse (Document.unifyLineEnds text.toList) with
  | .error m => throw (.malformed m)
  | .ok v =>
    match v with
    | .object _ => return v
    | _ => throw (.notAnObject path)

def load (files : FileTree) (path : Text) : Load Unit := do
  Load.sections (← Load.check (document files path))

end Snapshot
end LineClosure
