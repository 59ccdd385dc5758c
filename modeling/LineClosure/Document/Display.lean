import LineClosure.Document.Decimal
import LineClosure.Document.Printable
import LineClosure.Document.Value

/-! How values read inside messages. A text stands as it is at the top and quoted inside a
list or an object; numbers have their shortest decimals. -/

namespace LineClosure

/-- The digits of a number in positional form from `10 ^ -4` up to below `10 ^ 16`, always
with a point, and in scientific form outside, the exponent with a sign and two digits. -/
def Decimal.render (d : Decimal) : String :=
  let digits := toString d.digits
  let point : Int := digits.length + d.exponent
  let zeros (n : Nat) : String := String.ofList (List.replicate n '0')
  if -4 < point ∧ point ≤ 16 then
    if point ≤ 0 then "0." ++ zeros (-point).toNat ++ digits
    else if d.exponent ≥ 0 then digits ++ zeros d.exponent.toNat ++ ".0"
    else
      (digits.take point.toNat).toString ++ "." ++ (digits.drop point.toNat).toString
  else
    let scale := point - 1
    let tail := if digits.length = 1 then "" else "." ++ (digits.drop 1).toString
    let size := toString scale.natAbs
    (digits.take 1).toString ++ tail ++ "e" ++ (if scale < 0 then "-" else "+") ++
      (if size.length < 2 then "0" ++ size else size)

def Double.display (d : Double) : String :=
  match d.meaning with
  | .nan => "nan"
  | .infinite negative => if negative then "-inf" else "inf"
  | .finite negative m q =>
    (if negative then "-" else "") ++ if m = 0 then "0.0" else (Decimal.shortest m q).render

def hexDigits (width n : Nat) : String :=
  String.ofList ((List.range width).reverse.map fun place => (n / Nat.pow 16 place % 16).digitChar)

/-- A character inside quotes. The quote in use and the backslash are escaped; characters
without a visible form are shown by number. -/
def quoteChar (mark c : Char) : String :=
  if c = mark ∨ c = '\\' then String.ofList ['\\', c]
  else if c = '\n' then "\\n"
  else if c = '\r' then "\\r"
  else if c = '\t' then "\\t"
  else if Printable.isPrintable c then String.singleton c
  else if c.toNat < 0x100 then "\\x" ++ hexDigits 2 c.toNat
  else if c.toNat < 0x10000 then "\\u" ++ hexDigits 4 c.toNat
  else "\\U" ++ hexDigits 8 c.toNat

def quotePoint (mark : Char) (point : Nat) : String :=
  if isHalf point then "\\u" ++ hexDigits 4 point else quoteChar mark (Char.ofNat point)

/-- Single quotes, unless the text holds some and no double ones. -/
def quoted (t : Text) : String :=
  let points := t.points
  let mark := if points.contains '\''.toNat && !points.contains '"'.toNat then '"' else '\''
  String.singleton mark ++ String.join (points.map (quotePoint mark)) ++ String.singleton mark

namespace Scalar

def nested : Scalar → String
  | .null => "None"
  | .bool b => if b then "True" else "False"
  | .int n => toString n
  | .double d => d.display
  | .text t => quoted t

def display : Scalar → Text
  | .text t => t
  | s => s.nested

end Scalar

namespace Value

mutual

def nested : Value → String
  | .scalar s => s.nested
  | .list items => "[" ++ String.intercalate ", " (nestedItems items) ++ "]"
  | .object fields => "\x7b" ++ String.intercalate ", " (nestedFields fields) ++ "\x7d"

def nestedItems : List Value → List String
  | [] => []
  | v :: rest => v.nested :: nestedItems rest

def nestedFields : List (Text × Value) → List String
  | [] => []
  | (name, v) :: rest => (quoted name ++ ": " ++ v.nested) :: nestedFields rest

end

def display : Value → Text
  | .scalar s => s.display
  | v => v.nested

def asText (v : Value) : Value := .scalar (.text v.display)

end Value
end LineClosure
