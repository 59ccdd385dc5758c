import LineClosure.Registry.Position
import LineClosure.Registry.Query

/-! Where a stop area is. An area with coordinates is at its own position; any other is at
the mean of the places of its children that have one. Stop places may lie inside each other
in a circle, so the descent remembers where it has been. -/

namespace LineClosure

/-- The position an area has by itself. It takes both coordinates. -/
def StopArea.position? (a : StopArea) : Except CoordinateFault (Option Position) :=
  if a.longitude.isNull || a.latitude.isNull then .ok none
  else some <$> Position.ofValues a.longitude a.latitude

inductive CentroidFault where
  | refused (problem : Problem)
  | coordinates (fault : CoordinateFault)
deriving DecidableEq

namespace Registry

/-- The descent from an area, with the areas visited so far. Each level down visits an area
without coordinates that was not visited yet, so the number of areas bounds its depth. -/
def descend (r : Registry) :
    Nat → Id → List Id → Except CoordinateFault (Option Position × List Id)
  | 0, _, visited => .ok (none, visited)
  | depth + 1, areaId, visited => do
    let own ← ((r.stopAreas.find? areaId).map StopArea.position?).getD (.ok none)
    if own.isSome then return (own, visited)
    let (points, visited) ← (r.nesting.row areaId).foldlM
      (fun (found : List Position × List Id) childId =>
        if found.2.contains childId then pure found
        else do
          let (point, visited) ← r.descend depth childId found.2
          return (found.1 ++ point.toList, visited))
      ([], areaId :: visited)
    return (Position.mean? points, visited)

def centroid (r : Registry) (area : Reference) : Except CentroidFault (Option Position) :=
  match r.lookUp (α := StopArea) area with
  | .error problem => .error (.refused problem)
  | .ok area =>
    match r.descend (r.stopAreas.size + 1) area.id [] with
    | .error fault => .error (.coordinates fault)
    | .ok (place, _) => .ok place

end Registry
end LineClosure
