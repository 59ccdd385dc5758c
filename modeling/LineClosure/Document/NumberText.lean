import LineClosure.Document.Digit
import LineClosure.Document.Reader

/-! Texts that spell a number: decimal digits of any script with a sign, a point and an
exponent, or a word for infinity or no number. Blanks around it do not count, and single
underscores may stand between digits. The number is the nearest double. -/

namespace LineClosure.NumberText

def wideBlanks : List Nat := [
  0x85, 0xa0, 0x1680, 0x2000, 0x2001, 0x2002, 0x2003, 0x2004, 0x2005, 0x2006, 0x2007, 0x2008,
  0x2009, 0x200a, 0x2028, 0x2029, 0x202f, 0x205f, 0x3000
]

def isBlank (c : Char) : Bool :=
  c = ' ' || (0x9 ≤ c.toNat && c.toNat ≤ 0xd) || wideBlanks.contains c.toNat

def plainDigit (c : Char) : Char :=
  match Digit.value? c with
  | some n => n.digitChar
  | none => c

def trim (cs : List Char) : List Char :=
  ((cs.dropWhile isBlank).reverse.dropWhile isBlank).reverse

/-- Drops underscores, each of which has to stand between two digits. -/
def dropUnderscores : Option Char → List Char → Option (List Char)
  | _, [] => some []
  | before, '_' :: rest =>
    if before.any Char.isDigit && rest.head?.any Char.isDigit then dropUnderscores none rest
    else none
  | _, c :: rest => (dropUnderscores (some c) rest).map (c :: ·)

def readSign : List Char → Bool × List Char
  | '-' :: rest => (true, rest)
  | '+' :: rest => (false, rest)
  | cs => (false, cs)

def readPlaces : List Char → List Char × List Char
  | '.' :: rest => rest.span Char.isDigit
  | cs => ([], cs)

def readDecimal (negative : Bool) (cs : List Char) : Option Double :=
  let (whole, rest) := cs.span Char.isDigit
  let (places, rest) := readPlaces rest
  let (exponent, rest) := Document.readExponent rest
  if (whole ++ places).isEmpty || !rest.isEmpty then none
  else
    let scale : Int := exponent.getD 0 - places.length
    some (Double.ofDecimal negative (Document.digitsValue (whole ++ places)) scale)

def read? (cs : List Char) : Option Double := do
  let plain ← dropUnderscores none (trim (cs.map plainDigit))
  let (negative, body) := readSign plain
  match String.ofList (body.map Char.toLower) with
  | "inf" | "infinity" => return Double.infinity negative
  | "nan" => return Double.nan
  | _ => readDecimal negative body

end LineClosure.NumberText

namespace LineClosure

def Text.number? : Text → Option Double
  | .whole s => NumberText.read? s.toList
  | .torn .. => none

end LineClosure
