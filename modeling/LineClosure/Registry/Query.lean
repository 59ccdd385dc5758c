import LineClosure.Registry.Basic

/-! What can be asked of a registry. Every list is in the order in which its entries were
attached. -/

namespace LineClosure.Registry

def entities [Entity α] (r : Registry) (ids : List Id) : List α :=
  ids.filterMap (Entity.table r).find?

def parent? (r : Registry) (areaId : Id) : Option StopArea :=
  (r.nesting.holder? areaId).bind r.stopAreas.find?

def childAreas (r : Registry) (areaId : Id) : List StopArea :=
  r.entities (r.nesting.row areaId)

def childStopPoints (r : Registry) (areaId : Id) : List StopPoint :=
  r.entities (r.siting.row areaId)

def areaOf? (r : Registry) (stopPointId : Id) : Option StopArea :=
  (r.siting.holder? stopPointId).bind r.stopAreas.find?

def areasConstrainedBy (r : Registry) (areaId : Id) : List StopArea :=
  r.entities (r.constrainedAreas.row areaId)

def linesConstrainedBy (r : Registry) (areaId : Id) : List Reference :=
  r.constrainedLines.row areaId

def constraintsOn (r : Registry) (line : Reference) : List StopArea :=
  r.entities (r.constrainedLines.holders line)

/-- The links that start at an area, then those that only end there. -/
def connectionIdsAt (r : Registry) (areaId : Id) : List Id :=
  let starts := r.connectionStarts.row areaId
  starts ++ (r.connectionEnds.row areaId).filter fun id => !Attachments.lists starts id

def connectionsAt (r : Registry) (areaId : Id) : List ConnectionLink :=
  r.entities (r.connectionIdsAt areaId)

def accessLinksAt (r : Registry) (areaId : Id) : List AccessLink :=
  r.entities (r.linkedPaths.row areaId)

def accessPointsAt (r : Registry) (areaId : Id) : List AccessPoint :=
  r.entities (r.entrances.row areaId)

end LineClosure.Registry
