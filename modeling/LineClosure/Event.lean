import LineClosure.Registry.Problem

/-! What is worth telling about a run: events that are logged, in the order in which they
happen. -/

namespace LineClosure

structure Rejection where
  holder : Reference
  item : Reference
  problem : Problem
deriving DecidableEq

def Rejection.message (r : Rejection) : Text :=
  r.holder.display ++ " -> " ++ r.item.display ++ ": " ++ r.problem.message

inductive Level where
  | warning
  | error
deriving DecidableEq

def Level.text : Level → String
  | warning => "WARNING"
  | error => "ERROR"

inductive Event where
  /-- A text was longer than it may be; the whole of it is told. -/
  | textCut (field : String) (owner : Reference) (value : Value)
  | linkToUnknownArea (kind : Kind) (id : Id) (area : Reference)
  | containmentRejected (rejection : Rejection)
  | containmentsRejected (count : Nat)
  | notFound (kind : Kind) (reference : Reference) (owner : Id)
  | noStopPoints (routeId : Id)
  | noStopArea (stopPointId : Id)
  | validationFailed (errors : Nat)
  | validationWarned (warnings : Nat)
  | noData (lineId : Id)

namespace Event

def level : Event → Level
  | noStopPoints _ | validationFailed _ => .error
  | _ => .warning

def phrase : Kind → String
  | .connectionLink => "Connection link"
  | .accessPoint => "Access point"
  | .accessLink => "Access link"
  | kind => kind.text

def message : Event → Text
  | textCut field owner value =>
    field ++ " too long on " ++ owner.display ++ ", truncated: " ++ value.display
  | linkToUnknownArea kind id area =>
    phrase kind ++ " " ++ id.display ++ " references unknown stop area " ++ area.display
  | containmentRejected rejection => "Containment rejected: " ++ rejection.message
  | containmentsRejected count => toString count ++ " containment relations rejected"
  | notFound kind reference owner =>
    kind.text ++ " " ++ reference.display ++ " referenced by " ++ owner.display ++
      " not found, skipping"
  | noStopPoints routeId => "Route " ++ routeId.display ++ " has no stop points"
  | noStopArea stopPointId => "Stop point " ++ stopPointId.display ++ " is in no stop area"
  | validationFailed errors => "Validation failed with " ++ toString errors ++ " errors"
  | validationWarned warnings => "Validation passed with " ++ toString warnings ++ " warnings"
  | noData lineId => "Line " ++ lineId.display ++ " has no data on period"

end Event
end LineClosure
