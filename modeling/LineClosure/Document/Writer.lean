import LineClosure.Document.Display

/-! Writing documents: one value a line, two blanks an indentation, the fields of every
object sorted by name, and nothing but ASCII. -/

namespace LineClosure

namespace Document

def escapeUnits (n : Nat) : String :=
  if n < 0x10000 then "\\u" ++ hexDigits 4 n
  else
    let rest := n - 0x10000
    "\\u" ++ hexDigits 4 (0xd800 + rest / 0x400) ++ "\\u" ++ hexDigits 4 (0xdc00 + rest % 0x400)

def escapeChar (c : Char) : String :=
  if c = '"' ∨ c = '\\' then String.ofList ['\\', c]
  else if c = '\n' then "\\n"
  else if c = '\r' then "\\r"
  else if c = '\t' then "\\t"
  else if c = '\x0c' then "\\f"
  else if c = '\x08' then "\\b"
  else if 0x20 ≤ c.toNat ∧ c.toNat < 0x7f then String.singleton c
  else escapeUnits c.toNat

/-- Half a pair alone is written like the halves of a character beyond the basic plane. -/
def escapePoint (point : Nat) : String :=
  if isHalf point then escapeUnits point else escapeChar (Char.ofNat point)

def escapeText (t : Text) : String :=
  "\"" ++ String.join (t.points.map escapePoint) ++ "\""

def newline (depth : Nat) : String :=
  "\n" ++ String.ofList (List.replicate (2 * depth) ' ')

/-- Parts between brackets, each on a line of its own; without parts the brackets meet. -/
def enclose (opening closing : String) (depth : Nat) (parts : List String) : String :=
  if parts.isEmpty then opening ++ closing
  else
    opening ++ newline (depth + 1) ++ String.intercalate ("," ++ newline (depth + 1)) parts ++
      newline depth ++ closing

end Document

def Double.write (d : Double) : String :=
  match d.meaning with
  | .nan => "NaN"
  | .infinite negative => if negative then "-Infinity" else "Infinity"
  | _ => d.display

def Scalar.write : Scalar → String
  | .null => "null"
  | .bool b => if b then "true" else "false"
  | .int n => toString n
  | .double d => d.write
  | .text t => Document.escapeText t

namespace Value

mutual

def write (depth : Nat) : Value → String
  | .scalar s => s.write
  | .list items => Document.enclose "[" "]" depth (writeItems (depth + 1) items)
  | .object fields =>
    let sorted := (writeFields (depth + 1) fields).mergeSort fun a b => a.1.isAtMost b.1
    Document.enclose "\x7b" "\x7d" depth
      (sorted.map fun field => Document.escapeText field.1 ++ ": " ++ field.2)

def writeItems (depth : Nat) : List Value → List String
  | [] => []
  | v :: rest => v.write depth :: writeItems depth rest

def writeFields (depth : Nat) : List (Text × Value) → List (Text × String)
  | [] => []
  | (name, v) :: rest => (name, v.write depth) :: writeFields depth rest

end

end Value

def Document.render (v : Value) : String := v.write 0

end LineClosure
