import LineClosure.Document.Display
import LineClosure.Document.NumberText

/-! Positions from pairs of coordinates. A coordinate is a number, or a text that spells one.
Lists around both coordinates are looked through as long as each has one entry.

Points and their means come from a geometry library that is no part of the program. How
`Position.ofValues` reads two coordinates, what it says of those it refuses, and how
`Position.mean?` adds points up are assumptions about that library. -/

namespace LineClosure

/-- `x` is the longitude and `y` the latitude. -/
structure Position where
  x : Double
  y : Double
deriving DecidableEq

inductive CoordinateFault where
  | tooLarge
  | noNumber (shown : String)
  /-- Lists of different lengths, or a list beside a value that is none. -/
  | ragged (lengths : List Nat)
  | tooDeep
  /-- Lists of several entries, or of none. -/
  | crowded (longitude latitude : Value)
  | unusable
deriving DecidableEq

/-- The most dimensions that a pair of nested lists may have, the pair itself being one. -/
def maxDimensions : Nat := 64

def CoordinateFault.message : CoordinateFault → String
  | tooLarge => "int too large to convert to float"
  | noNumber shown => "could not convert string to float: " ++ shown
  | ragged lengths =>
    let shape := if lengths.isEmpty then "2," else
      String.intercalate ", " ((2 :: lengths).map toString)
    "setting an array element with a sequence. The requested array has an inhomogeneous shape " ++
      "after " ++ toString (lengths.length + 1) ++ " dimensions. The detected shape was (" ++
      shape ++ ") + inhomogeneous part."
  | tooDeep =>
    "setting an array element with a sequence. The requested array would exceed the maximum " ++
      "number of dimension of " ++ toString maxDimensions ++ "."
  | crowded longitude latitude =>
    "Point() takes only scalar or 1-size vector arguments, got (" ++ longitude.nested ++ ", " ++
      latitude.nested ++ ")"
  | unusable => "A coordinate of this kind cannot be used"

namespace Position

/-- Whether a value keeps its own form beside a text: an integer of more than 64 bits does,
and so does a value that is no number. All others are turned into texts. -/
def standsAlone : Value → Bool
  | .int n => n < -(pow2 63 : Int) || (pow2 64 : Int) ≤ n
  | .bool _ | .double _ | .scalar (.text _) => false
  | _ => true

def unpadded (t : Text) : Text := .ofPoints (t.points.reverse.dropWhile (· = 0)).reverse

/-- The number a coordinate is. Of coordinates turned into texts, a truth value is no number
any more, and NULs at the end are lost. -/
def coordinate (asTexts : Bool) (v : Value) : Except CoordinateFault Double :=
  let shown (t : Text) : String := if asTexts then "np.str_(" ++ quoted t ++ ")" else quoted t
  match v with
  | .bool b =>
    if asTexts then .error (.noNumber (shown (.whole (Scalar.bool b).nested)))
    else .ok (Double.ofInt (if b then 1 else 0))
  | .int n =>
    let d := Double.ofInt n
    if d = Double.infinity false ∨ d = Double.infinity true then .error .tooLarge else .ok d
  | .double d => .ok d
  | .scalar (.text t) =>
    let t := if asTexts then unpadded t else t
    match t.number? with
    | some d => .ok d
    | none => .error (.noNumber (shown t))
  | _ => .error .unusable

def isText : Value → Bool
  | .scalar (.text _) => true
  | _ => false

def ofScalars (longitude latitude : Value) : Except CoordinateFault Position := do
  let both := [longitude, latitude]
  let asTexts := both.any isText && !both.any standsAlone
  return ⟨← coordinate asTexts longitude, ← coordinate asTexts latitude⟩

def items? : Value → Option (List Value)
  | .list items => some items
  | _ => none

/-- The values inside lists that are all of one shape, with the lengths level by level. So
many more levels may be looked into. -/
def level : Nat → List Nat → List Value → Except CoordinateFault (List Nat × List Value)
  | 0, lengths, values =>
    if values.any fun v => (items? v).isSome then .error .tooDeep else .ok (lengths, values)
  | depth + 1, lengths, values =>
    match values.filterMap items? with
    | [] => .ok (lengths, values)
    | first :: others =>
      let alike := others.all fun items => items.length = first.length
      if others.length + 1 = values.length ∧ alike then
        level depth (lengths ++ [first.length]) (first ++ others.flatten)
      else .error (.ragged lengths)

def ofValues (longitude latitude : Value) : Except CoordinateFault Position := do
  let (lengths, values) ← level (maxDimensions - 1) [] [longitude, latitude]
  match lengths.all (· = 1), values with
  | true, [x, y] => ofScalars x y
  | _, _ => .error (.crowded longitude latitude)

/-- The coordinates added up in order from zero, each sum divided by their number. -/
def mean? (points : List Position) : Option Position :=
  if points.isEmpty then none
  else
    let total (coordinate : Position → Double) : Double :=
      (points.map coordinate).foldl Double.add (Double.ofInt 0)
    some ⟨(total Position.x).divNat points.length, (total Position.y).divNat points.length⟩

end Position
end LineClosure
