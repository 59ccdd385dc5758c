/-! Texts. A document may escape the two halves of a surrogate pair one by one, and so hold
half a pair alone, for which there is no character. Such a text is torn and kept as its code
points; every other text is a string. Whatever is made from torn texts keeps their halves. -/

namespace LineClosure

/-- Half of a surrogate pair. -/
def isHalf (point : Nat) : Bool := 0xd800 ≤ point && point < 0xe000

inductive Text where
  | whole (s : String)
  | torn (points : List Nat) (halved : points.any isHalf = true)
deriving DecidableEq

namespace Text

instance : Inhabited Text := ⟨whole ""⟩

instance : Coe String Text := ⟨whole⟩

def points : Text → List Nat
  | whole s => s.toList.map Char.toNat
  | torn points _ => points

/-- The text of some code points. It is torn only if one of them is half a pair. -/
def ofPoints (points : List Nat) : Text :=
  if halved : points.any isHalf = true then torn points halved
  else whole (String.ofList (points.map Char.ofNat))

/-- One text behind the other. Two halves that meet stay apart. -/
def append : Text → Text → Text
  | whole s, whole t => whole (s ++ t)
  | torn points halved, more =>
    torn (points ++ more.points) (by rw [List.any_append, halved, Bool.true_or])
  | whole s, torn points halved =>
    torn ((whole s).points ++ points) (by rw [List.any_append, halved, Bool.or_true])

instance : Append Text := ⟨append⟩

@[simp] theorem whole_append (s t : String) : whole s ++ whole t = whole (s ++ t) := rfl

@[simp] theorem points_append (t u : Text) : (t ++ u).points = t.points ++ u.points := by
  change (append t u).points = _
  unfold append
  split
  · simp [points]
  · rfl
  · rfl

def join (separator : Text) : List Text → Text
  | [] => ""
  | first :: others => others.foldl (fun joined t => joined ++ separator ++ t) first

/-- The code points between the marks. There is one part more than there are marks. -/
def splitPoints (mark : Nat) (points : List Nat) : List (List Nat) :=
  points.foldr
    (fun point parts =>
      if point = mark then [] :: parts
      else match parts with
        | [] => [[point]]
        | part :: others => (point :: part) :: others)
    [[]]

def split (t : Text) (mark : Char) : List Text :=
  (splitPoints mark.toNat t.points).map ofPoints

def length (t : Text) : Nat := t.points.length

def take (t : Text) (n : Nat) : Text := ofPoints (t.points.take n)

def drop (t : Text) (n : Nat) : Text := ofPoints (t.points.drop n)

def isEmpty (t : Text) : Bool := t.points.isEmpty

def contains (t : Text) (c : Char) : Bool := t.points.contains c.toNat

def startsWith (t start : Text) : Bool := start.points.isPrefixOf t.points

def characters (t : Text) : List Text := t.points.map fun point => ofPoints [point]

def isAtMost (t u : Text) : Bool := !u.points.lex t.points Nat.blt

end Text
end LineClosure
