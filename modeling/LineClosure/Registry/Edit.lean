import LineClosure.Registry.Basic

/-! The changes a registry accepts. Each looks up what it is about, checks the rules, and
only then touches a table. A change that fails hands back the registry as it left it, so
that nothing was touched is a fact to be proved and not a matter of form. -/

namespace LineClosure

abbrev Edit := EStateM Problem Registry

namespace Edit

open Keyed

def require (α : Type) [Entity α] (reference : Reference) : Edit α := fun r =>
  match r.lookUp reference with
  | .ok a => .ok a r
  | .error problem => .error problem r

def identify (reference : Reference) : Edit Id :=
  match reference.id? with
  | some id => pure id
  | none => throw (.unusable reference)

def enter [Entity α] (a : α) : Edit Unit := do
  let table : Roster α := Entity.table (← get)
  if table.contains (key a) then throw (.duplicate (Entity.kind α) (key a))
  modify fun r => Entity.withTable r (table.insert a)

/-- Puts an entity into its table unless that very record is there. The stamp decides
whether a record of the same identifier is that one. -/
def adopt [Entity α] (stamp : α → Nat) (a : α) : Edit Unit := do
  let table : Roster α := Entity.table (← get)
  match table.find? (key a) with
  | none => modify fun r => Entity.withTable r (table.insert a)
  | some present =>
    if stamp present ≠ stamp a then throw (.duplicate (Entity.kind α) (key a))

def register : Record → Edit Unit
  | .network n => enter n
  | .company c => enter c
  | .groupOfLines g => enter g
  | .line l => enter l
  | .route r => enter r
  | .journeyPattern p => enter p
  | .vehicleJourney j => enter j
  | .timetable t => enter t
  | .stopArea a => enter a
  | .stopPoint p => enter p
  | .connectionLink l => enter l
  | .accessPoint p => enter p
  | .accessLink l => enter l
  | .calendarDay _ => throw (.notAnEntity "CalendarDay")
  | .period _ => throw (.notAnEntity "Period")
  | .tally _ => throw (.notAnEntity "LineStats")

def onNesting (change : Placement.Change Unit) : Edit Unit := fun r =>
  match change r.nesting with
  | .ok u p => .ok u { r with nesting := p }
  | .error problem p => .error problem { r with nesting := p }

def onSiting (change : Placement.Change Unit) : Edit Unit := fun r =>
  match change r.siting with
  | .ok u p => .ok u { r with siting := p }
  | .error problem p => .error problem { r with siting := p }

/-- Puts an area inside another one. A routing constraint only lists the area; any other
parent takes it over from the parent it had. -/
def nest (parent child : Reference) : Edit Unit := do
  let parent ← require StopArea parent
  let child ← require StopArea child
  if parent.id.equals child.id ∨ child.areaType ∉ parent.areaType.children then
    throw (.forbidden parent.areaType (.area child.areaType) parent.areaType.childRelation)
  if parent.areaType = .routingConstraint then
    modify fun r => { r with constrainedAreas := r.constrainedAreas.attach parent.id child.id }
  else onNesting (Placement.put parent.id child.id)

/-- Takes an area out of another one, or off the list of a routing constraint. What is no
identifier is in no list. -/
def unnest (parent child : Reference) : Edit Unit := do
  let parent ← require StopArea parent
  if let some childId := child.id? then
    if parent.areaType = .routingConstraint then
      modify fun r => { r with constrainedAreas := r.constrainedAreas.detach parent.id childId }
    else onNesting (Placement.take parent.id childId)

def constrainArea (constraint child : Reference) : Edit Unit := do
  let area ← require StopArea constraint
  let listed ← require StopArea child
  if area.areaType ≠ .routingConstraint then
    throw (.forbidden area.areaType (.area listed.areaType) .constrainedAreas)
  nest constraint child

def unconstrainArea (constraint child : Reference) : Edit Unit := do
  let area ← require StopArea constraint
  let listed ← require StopArea child
  if area.areaType ≠ .routingConstraint then
    throw (.forbidden area.areaType (.area listed.areaType) .constrainedAreas)
  modify fun r => { r with constrainedAreas := r.constrainedAreas.detach area.id listed.id }

def site (area stopPoint : Reference) : Edit Unit := do
  let area ← require StopArea area
  let stopPoint ← require StopPoint stopPoint
  if !area.areaType.holdsStopPoints then
    throw (.forbidden area.areaType .stopPoint .containedStopPoints)
  onSiting (Placement.put area.id stopPoint.id)

/-- Takes a stop point out of an area, if it is there. Neither need be registered. -/
def unsite (area stopPoint : Reference) : Edit Unit := do
  let areaId ← identify area
  if let some stopPointId := stopPoint.id? then onSiting (Placement.take areaId stopPointId)

/-- Lists a line in a routing constraint. The line need not be registered. -/
def constrainLine (constraint line : Reference) : Edit Unit := do
  let area ← require StopArea constraint
  if area.areaType ≠ .routingConstraint then
    throw (.forbidden area.areaType .line .constrainedLines)
  modify fun r => { r with constrainedLines := r.constrainedLines.attach area.id line }

def unconstrainLine (constraint line : Reference) : Edit Unit := do
  let area ← require StopArea constraint
  if area.areaType ≠ .routingConstraint then
    throw (.forbidden area.areaType .line .constrainedLines)
  modify fun r => { r with constrainedLines := r.constrainedLines.detach area.id line }

inductive LinkEnd where
  | start
  | finish
deriving DecidableEq

/-- Attaches a connection link to an area. Which areas the link itself names is not asked. -/
def joinConnection (area : Reference) (link : ConnectionLink) (side : LinkEnd) : Edit Unit := do
  let area ← require StopArea area
  adopt (·.stamp) link
  match side with
  | .start =>
    modify fun r => { r with connectionStarts := r.connectionStarts.attach area.id link.id }
  | .finish =>
    modify fun r => { r with connectionEnds := r.connectionEnds.attach area.id link.id }

def dropConnection (area link : Reference) : Edit Unit := do
  let areaId ← identify area
  if let some linkId := link.id? then
    modify fun r =>
      { r with
        connectionStarts := r.connectionStarts.detach areaId linkId
        connectionEnds := r.connectionEnds.detach areaId linkId }

def joinAccessLink (area : Reference) (link : AccessLink) : Edit Unit := do
  let area ← require StopArea area
  adopt (·.stamp) link
  modify fun r => { r with linkedPaths := r.linkedPaths.attach area.id link.id }

def dropAccessLink (area link : Reference) : Edit Unit := do
  let areaId ← identify area
  if let some linkId := link.id? then
    modify fun r => { r with linkedPaths := r.linkedPaths.detach areaId linkId }

def joinAccessPoint (area : Reference) (point : AccessPoint) : Edit Unit := do
  let area ← require StopArea area
  adopt (·.stamp) point
  modify fun r => { r with entrances := r.entrances.attach area.id point.id }

def dropAccessPoint (area point : Reference) : Edit Unit := do
  let areaId ← identify area
  if let some pointId := point.id? then
    modify fun r => { r with entrances := r.entrances.detach areaId pointId }

def retype (area : Reference) (type : AreaType) : Edit Unit := do
  let area ← require StopArea area
  modify fun r =>
    let amended := r.stopAreas.amend area.id (fun a => { a with areaType := type }) fun _ => rfl
    { r with stopAreas := amended }

end Edit
end LineClosure
