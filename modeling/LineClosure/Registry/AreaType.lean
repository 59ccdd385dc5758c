/-! The types of stop areas and what an area of each type may hold. -/

namespace LineClosure

inductive AreaType where
  | boardingPosition
  | quay
  | commercialStopPoint
  | stopPlace
  | routingConstraint
deriving DecidableEq, Inhabited

namespace AreaType

def all : List AreaType :=
  [boardingPosition, quay, commercialStopPoint, stopPlace, routingConstraint]

def text : AreaType → String
  | boardingPosition => "BoardingPosition"
  | quay => "Quay"
  | commercialStopPoint => "CommercialStopPoint"
  | stopPlace => "StopPlace"
  | routingConstraint => "RoutingConstraint"

/-- The areas a passenger boards at are the only ones to hold stop points, and hold no
areas. A routing constraint may list any area but another constraint. -/
def children : AreaType → List AreaType
  | boardingPosition | quay => []
  | commercialStopPoint => [boardingPosition, quay]
  | stopPlace => [stopPlace, commercialStopPoint]
  | routingConstraint => [boardingPosition, quay, commercialStopPoint, stopPlace]

def holdsStopPoints : AreaType → Bool
  | boardingPosition | quay => true
  | _ => false

theorem holdsStopPoints_iff {type : AreaType} :
    type.holdsStopPoints = true ↔ type = boardingPosition ∨ type = quay := by
  cases type <;> decide

end AreaType

inductive Relation where
  | containedAreas
  | containedStopPoints
  | constrainedAreas
  | constrainedLines
deriving DecidableEq

def Relation.text : Relation → String
  | containedAreas => "contained_stop_areas"
  | containedStopPoints => "contained_stop_points"
  | constrainedAreas => "routing_constraint_areas"
  | constrainedLines => "routing_constraint_lines"

def AreaType.childRelation : AreaType → Relation
  | routingConstraint => .constrainedAreas
  | _ => .containedAreas

inductive Held where
  | area (type : AreaType)
  | stopPoint
  | line
deriving DecidableEq

def Held.text : Held → String
  | area type => type.text
  | stopPoint => "StopPoint"
  | line => "Line"

end LineClosure
