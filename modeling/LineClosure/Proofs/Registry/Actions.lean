import LineClosure.Proofs.Registry.PlacementMoves
import LineClosure.Registry.Edit

/-! What can be done to a registry, and what comes of it. Every change either refuses, with a
problem that the caller can have caused and the registry untouched, or has the effect that
its constructor spells out, guards included. Whatever holds of all reachable registries is
proved from the effects. -/

namespace LineClosure

open Keyed

def Text.reference (t : Text) : Reference := .scalar (.text t)

def Record.entity? : Record → Option ((α : Type) × Entity α × α)
  | .network n => some ⟨_, inferInstance, n⟩
  | .company c => some ⟨_, inferInstance, c⟩
  | .groupOfLines g => some ⟨_, inferInstance, g⟩
  | .line l => some ⟨_, inferInstance, l⟩
  | .route r => some ⟨_, inferInstance, r⟩
  | .journeyPattern p => some ⟨_, inferInstance, p⟩
  | .vehicleJourney j => some ⟨_, inferInstance, j⟩
  | .timetable t => some ⟨_, inferInstance, t⟩
  | .stopArea a => some ⟨_, inferInstance, a⟩
  | .stopPoint p => some ⟨_, inferInstance, p⟩
  | .connectionLink l => some ⟨_, inferInstance, l⟩
  | .accessPoint p => some ⟨_, inferInstance, p⟩
  | .accessLink l => some ⟨_, inferInstance, l⟩
  | .calendarDay _ | .period _ | .tally _ => none

/-- A change asked of a registry from outside. Identifiers are texts. -/
inductive Action where
  | register (record : Record)
  | nest (parent child : Text)
  | unnest (parent child : Text)
  | constrainArea (constraint child : Text)
  | unconstrainArea (constraint child : Text)
  | site (area stopPoint : Text)
  | unsite (area stopPoint : Text)
  | constrainLine (constraint line : Text)
  | unconstrainLine (constraint line : Text)
  | joinConnection (area : Text) (link : ConnectionLink) (side : Edit.LinkEnd)
  | dropConnection (area link : Text)
  | joinAccessLink (area : Text) (link : AccessLink)
  | dropAccessLink (area link : Text)
  | joinAccessPoint (area : Text) (point : AccessPoint)
  | dropAccessPoint (area point : Text)
  | retype (area : Text) (type : AreaType)

namespace Action

def edit : Action → Edit Unit
  | register record => Edit.register record
  | nest parent child => Edit.nest parent.reference child.reference
  | unnest parent child => Edit.unnest parent.reference child.reference
  | constrainArea constraint child => Edit.constrainArea constraint.reference child.reference
  | unconstrainArea constraint child => Edit.unconstrainArea constraint.reference child.reference
  | site area stopPoint => Edit.site area.reference stopPoint.reference
  | unsite area stopPoint => Edit.unsite area.reference stopPoint.reference
  | constrainLine constraint line => Edit.constrainLine constraint.reference line.reference
  | unconstrainLine constraint line => Edit.unconstrainLine constraint.reference line.reference
  | joinConnection area link side => Edit.joinConnection area.reference link side
  | dropConnection area link => Edit.dropConnection area.reference link.reference
  | joinAccessLink area link => Edit.joinAccessLink area.reference link
  | dropAccessLink area link => Edit.dropAccessLink area.reference link.reference
  | joinAccessPoint area point => Edit.joinAccessPoint area.reference point
  | dropAccessPoint area point => Edit.dropAccessPoint area.reference point.reference
  | retype area type => Edit.retype area.reference type

/-- The registry that is there afterwards, whether the change succeeded or not. -/
def after (action : Action) (r : Registry) : Registry :=
  match action.edit r with
  | .ok _ s | .error _ s => s

end Action

/-- The registries that permitted changes lead to, from the empty one. -/
inductive Reachable (permitted : Action → Prop) : Registry → Prop where
  | empty : Reachable permitted {}
  | step {r : Registry} {action : Action} (before : Reachable permitted r)
    (may : permitted action) : Reachable permitted (action.after r)

def perform (actions : List Action) (r : Registry) : Registry :=
  actions.foldl (fun r action => action.after r) r

theorem Reachable.perform {permitted : Action → Prop} {r : Registry}
    (reached : Reachable permitted r) {actions : List Action}
    (may : ∀ action ∈ actions, permitted action) :
    Reachable permitted (perform actions r) := by
  induction actions generalizing r with
  | nil => exact reached
  | cons action rest ih =>
    exact ih (reached.step (may action List.mem_cons_self)) fun other later =>
      may other (List.mem_cons_of_mem _ later)

/-- The problems that a caller can cause with records that have a table. The others tell of a
record without one, of a registry out of order, or of an identifier that is none. -/
def Problem.IsRefusal : Problem → Prop
  | .forbidden .. | .unknown .. | .duplicate .. => True
  | .notAnEntity _ | .unusable _ | .brokenBackReference _ => False

def Action.IsForeign : Action → Prop
  | register record => record.entity? = none
  | _ => False

/-- An entity is in the table, where it was before or is the last now. -/
inductive Adopts {α : Type} [Keyed α] (stamp : α → Nat) (table : Roster α) (a : α) :
    Roster α → Prop where
  | known {present : α} (found : table.find? (key a) = some present)
    (same : stamp present = stamp a) : Adopts stamp table a table
  | enters (fresh : table.find? (key a) = none) : Adopts stamp table a (table.insert a)

/-- The rules let the one area hold the other. -/
structure MayHold (r : Registry) (parentId childId : Text) (parent child : StopArea) : Prop where
  hasParent : r.stopAreas.find? (.text parentId) = some parent
  hasChild : r.stopAreas.find? (.text childId) = some child
  apart : parentId ≠ childId
  allowed : child.areaType ∈ parent.areaType.children

inductive Effect (r : Registry) : Action → Registry → Prop where
  | register {α : Type} {kind : Entity α} {record : Record} {a : α}
    (is : record.entity? = some ⟨α, kind, a⟩)
    (fresh : (Entity.table (α := α) r).contains (key a) = false) :
    Effect r (.register record) (Entity.withTable r ((Entity.table r).insert a))
  | nest {p c : Text} {parent child : StopArea} {q : Placement} (may : MayHold r p c parent child)
    (inside : parent.areaType ≠ .routingConstraint) (puts : r.nesting.Puts p c q) :
    Effect r (.nest p c) { r with nesting := q }
  | nestInConstraint {p c : Text} {parent child : StopArea} (may : MayHold r p c parent child)
    (constraint : parent.areaType = .routingConstraint) :
    Effect r (.nest p c)
      { r with constrainedAreas := r.constrainedAreas.attach (.text p) (.text c) }
  | unnest {p c : Text} {parent : StopArea} {q : Placement}
    (hasParent : r.stopAreas.find? (.text p) = some parent)
    (inside : parent.areaType ≠ .routingConstraint) (takes : r.nesting.Takes p c q) :
    Effect r (.unnest p c) { r with nesting := q }
  | unnestFromConstraint {p c : Text} {parent : StopArea}
    (hasParent : r.stopAreas.find? (.text p) = some parent)
    (constraint : parent.areaType = .routingConstraint) :
    Effect r (.unnest p c)
      { r with constrainedAreas := r.constrainedAreas.detach (.text p) (.text c) }
  | constrainArea {p c : Text} {parent child : StopArea} (may : MayHold r p c parent child)
    (constraint : parent.areaType = .routingConstraint) :
    Effect r (.constrainArea p c)
      { r with constrainedAreas := r.constrainedAreas.attach (.text p) (.text c) }
  | unconstrainArea {p c : Text} {parent child : StopArea}
    (hasParent : r.stopAreas.find? (.text p) = some parent)
    (hasChild : r.stopAreas.find? (.text c) = some child)
    (constraint : parent.areaType = .routingConstraint) :
    Effect r (.unconstrainArea p c)
      { r with constrainedAreas := r.constrainedAreas.detach (.text p) (.text c) }
  | site {p s : Text} {area : StopArea} {stop : StopPoint} {q : Placement}
    (hasArea : r.stopAreas.find? (.text p) = some area)
    (hasStop : r.stopPoints.find? (.text s) = some stop)
    (boards : area.areaType.holdsStopPoints = true) (puts : r.siting.Puts p s q) :
    Effect r (.site p s) { r with siting := q }
  | unsite {p s : Text} {q : Placement} (takes : r.siting.Takes p s q) :
    Effect r (.unsite p s) { r with siting := q }
  | constrainLine {p l : Text} {area : StopArea}
    (hasArea : r.stopAreas.find? (.text p) = some area)
    (constraint : area.areaType = .routingConstraint) :
    Effect r (.constrainLine p l)
      { r with constrainedLines := r.constrainedLines.attach (.text p) l.reference }
  | unconstrainLine {p l : Text} {area : StopArea}
    (hasArea : r.stopAreas.find? (.text p) = some area)
    (constraint : area.areaType = .routingConstraint) :
    Effect r (.unconstrainLine p l)
      { r with constrainedLines := r.constrainedLines.detach (.text p) l.reference }
  | joinStart {p : Text} {area : StopArea} {link : ConnectionLink} {table : Roster ConnectionLink}
    (hasArea : r.stopAreas.find? (.text p) = some area)
    (adopts : Adopts (·.stamp) r.connectionLinks link table) :
    Effect r (.joinConnection p link .start)
      { r with
        connectionLinks := table
        connectionStarts := r.connectionStarts.attach (.text p) link.id }
  | joinFinish {p : Text} {area : StopArea} {link : ConnectionLink}
    {table : Roster ConnectionLink}
    (hasArea : r.stopAreas.find? (.text p) = some area)
    (adopts : Adopts (·.stamp) r.connectionLinks link table) :
    Effect r (.joinConnection p link .finish)
      { r with
        connectionLinks := table
        connectionEnds := r.connectionEnds.attach (.text p) link.id }
  | dropConnection {p l : Text} :
    Effect r (.dropConnection p l)
      { r with
        connectionStarts := r.connectionStarts.detach (.text p) (.text l)
        connectionEnds := r.connectionEnds.detach (.text p) (.text l) }
  | joinAccessLink {p : Text} {area : StopArea} {link : AccessLink} {table : Roster AccessLink}
    (hasArea : r.stopAreas.find? (.text p) = some area)
    (adopts : Adopts (·.stamp) r.accessLinks link table) :
    Effect r (.joinAccessLink p link)
      { r with
        accessLinks := table
        linkedPaths := r.linkedPaths.attach (.text p) link.id }
  | dropAccessLink {p l : Text} :
    Effect r (.dropAccessLink p l)
      { r with linkedPaths := r.linkedPaths.detach (.text p) (.text l) }
  | joinAccessPoint {p : Text} {area : StopArea} {point : AccessPoint}
    {table : Roster AccessPoint}
    (hasArea : r.stopAreas.find? (.text p) = some area)
    (adopts : Adopts (·.stamp) r.accessPoints point table) :
    Effect r (.joinAccessPoint p point)
      { r with
        accessPoints := table
        entrances := r.entrances.attach (.text p) point.id }
  | dropAccessPoint {p e : Text} :
    Effect r (.dropAccessPoint p e)
      { r with entrances := r.entrances.detach (.text p) (.text e) }
  | retype {p : Text} {type : AreaType} {area : StopArea}
    (hasArea : r.stopAreas.find? (.text p) = some area) :
    Effect r (.retype p type)
      { r with
        stopAreas := r.stopAreas.amend (.text p) (fun a => { a with areaType := type })
          fun _ => rfl }

/-- How a change ends: it refuses and touches nothing, or it succeeds. -/
inductive Ends (r : Registry) (effect : Registry → Prop) :
    EStateM.Result Problem Registry Unit → Prop where
  | refused {problem : Problem} (expected : problem.IsRefusal) : Ends r effect (.error problem r)
  | done {s : Registry} (reached : effect s) : Ends r effect (.ok () s)

end LineClosure
