import LineClosure.Document.Double
import LineClosure.Document.Text

/-! Document values. Most attributes of a snapshot are carried through unread, so they are
kept as the values they were, an integer apart from a double of the same size. -/

namespace LineClosure

inductive Scalar where
  | null
  | bool (b : Bool)
  | int (n : Int)
  | double (d : Double)
  | text (t : Text)
deriving DecidableEq, Inhabited

/-- Identifiers are whatever scalars a document uses for them, almost always texts. -/
abbrev Id := Scalar

/-- A document value. Fields of an object keep the order of their first appearance. -/
inductive Value where
  | scalar (s : Scalar)
  | list (items : List Value)
  | object (fields : List (Text × Value))
deriving Inhabited

mutual

def Value.decEq : (v w : Value) → Decidable (v = w)
  | .scalar s, .scalar t => decidable_of_iff (s = t) (by simp)
  | .list v, .list w => @decidable_of_iff _ (v = w) (by simp) (Value.decEqItems v w)
  | .object v, .object w => @decidable_of_iff _ (v = w) (by simp) (Value.decEqFields v w)
  | .scalar _, .list _ | .scalar _, .object _ | .list _, .scalar _ | .list _, .object _
  | .object _, .scalar _ | .object _, .list _ => isFalse (by simp)

def Value.decEqItems : (v w : List Value) → Decidable (v = w)
  | [], [] => isTrue rfl
  | [], _ :: _ | _ :: _, [] => isFalse (by simp)
  | v :: vs, w :: ws =>
    @decidable_of_iff _ (v = w ∧ vs = ws) (by simp)
      (@instDecidableAnd _ _ (Value.decEq v w) (Value.decEqItems vs ws))

def Value.decEqFields : (v w : List (Text × Value)) → Decidable (v = w)
  | [], [] => isTrue rfl
  | [], _ :: _ | _ :: _, [] => isFalse (by simp)
  | (n, v) :: vs, (m, w) :: ws =>
    @decidable_of_iff _ ((n = m ∧ v = w) ∧ vs = ws) (by simp)
      (@instDecidableAnd _ _ (@instDecidableAnd _ _ _ (Value.decEq v w)) (Value.decEqFields vs ws))

end

instance : DecidableEq Value := Value.decEq

namespace Value

@[match_pattern] abbrev null : Value := .scalar .null
@[match_pattern] abbrev bool (b : Bool) : Value := .scalar (.bool b)
@[match_pattern] abbrev int (n : Int) : Value := .scalar (.int n)
@[match_pattern] abbrev double (d : Double) : Value := .scalar (.double d)
/-- Nearly every text is a string, so this is the form in which texts are built and met. -/
@[match_pattern] abbrev text (s : String) : Value := .scalar (.text (.whole s))

def id? : Value → Option Id
  | .scalar s => some s
  | _ => none

def isNull : Value → Bool
  | null => true
  | _ => false

/-- Empty texts, lists and objects, zeros, `false` and `null` count as no; all else,
a NaN included, as yes. -/
def isTruthy : Value → Bool
  | null => false
  | bool b => b
  | int n => n != 0
  | double d => !d.isZero
  | .scalar (.text t) => !t.isEmpty
  | .list items => !items.isEmpty
  | .object fields => !fields.isEmpty

/-- What a loop over a value visits: the items of a list, the characters of a text, the
keys of an object. Other values have nothing to visit and refuse. -/
def elements? : Value → Option (List Value)
  | .list items => some items
  | .scalar (.text t) => some (t.characters.map fun c => .scalar (.text c))
  | .object fields => some (fields.map fun field => .scalar (.text field.1))
  | _ => none

def field? (v : Value) (name : String) : Option Value :=
  match v with
  | .object fields => fields.lookup (.whole name)
  | _ => none

/-- How a number compares with an integer. `none` if the value is no number, `some none`
if it is a NaN. A truth value counts as the number 0 or 1. -/
def compareInt? (v : Value) (n : Int) : Option (Option Ordering) :=
  match v with
  | bool b => some (some (compare (if b then 1 else 0) n))
  | int k => some (some (compare k n))
  | double d => some (d.compareInt n)
  | _ => none

def double? : Value → Option Double
  | bool b => some (Double.ofInt (if b then 1 else 0))
  | int k => some (Double.ofInt k)
  | double d => some d
  | _ => none

end Value

/-- Fields in order, a repeated name keeping its first place and taking its last value. -/
def Value.setField (fields : List (Text × Value)) (name : Text) (v : Value) :
    List (Text × Value) :=
  if fields.any (·.1 == name) then
    fields.map fun field => if field.1 == name then (name, v) else field
  else fields ++ [(name, v)]

end LineClosure
