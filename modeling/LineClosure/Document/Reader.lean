import LineClosure.Document.Value

/-! Reading a document from its text. Beyond the standard grammar the words `NaN`,
`Infinity` and `-Infinity` are numbers, and a repeated field name keeps its last value.
A fault is reported where the reader stands when it meets it, so the part of the text
still unread locates it. -/

namespace LineClosure.Document

inductive Fault where
  | expectingValue
  | expectingName
  | expectingColon
  | expectingComma
  | openText
  | controlCharacter
  | badEscape
  | badUnicodeEscape
  | trailingText
  | byteOrderMark
  | tooManyDigits (count : Nat)
  | tooDeep (kind : String)
deriving DecidableEq

structure Stop where
  fault : Fault
  unread : List Char

abbrev Reading (α : Type) := Except Stop (α × List Char)

def isBlank (c : Char) : Bool :=
  c = ' ' || c = '\t' || c = '\n' || c = '\r'

def skipBlank (cs : List Char) : List Char := cs.dropWhile isBlank

def hexValue? (c : Char) : Option Nat :=
  if '0' ≤ c ∧ c ≤ '9' then some (c.toNat - '0'.toNat)
  else if 'a' ≤ c ∧ c ≤ 'f' then some (c.toNat - 'a'.toNat + 10)
  else if 'A' ≤ c ∧ c ≤ 'F' then some (c.toNat - 'A'.toNat + 10)
  else none

def hexUnit? (a b c d : Char) : Option Nat := do
  return ((← hexValue? a) * 16 + (← hexValue? b)) * 256 + (← hexValue? c) * 16 + (← hexValue? d)

def isHighHalf (unit : Nat) : Bool := 0xd800 ≤ unit && unit ≤ 0xdbff
def isLowHalf (unit : Nat) : Bool := 0xdc00 ≤ unit && unit ≤ 0xdfff

def pairPoint (high low : Nat) : Nat :=
  0x10000 + (high - 0xd800) * 0x400 + (low - 0xdc00)

def simpleEscape? (c : Char) : Option Char :=
  if c = '"' ∨ c = '\\' ∨ c = '/' then some c
  else if c = 'b' then some '\x08'
  else if c = 'f' then some '\x0c'
  else if c = 'n' then some '\n'
  else if c = 'r' then some '\r'
  else if c = 't' then some '\t'
  else none

def lowHalf? : List Char → Except Stop (Option Nat)
  | '\\' :: 'u' :: a :: b :: c :: d :: next :: rest =>
    match hexUnit? a b c d with
    | none => .error ⟨.badUnicodeEscape, 'u' :: a :: b :: c :: d :: next :: rest⟩
    | some unit => .ok (if isLowHalf unit then some unit else none)
  | _ => .ok none

/-- Reads a text behind its opening quote. `opening` is the text from that quote on, where
a text that never ends is reported, and `seen` holds the code points read, last first. Half a
pair that meets no other half stays alone. A numeric escape has to be followed by something. -/
def readText (opening : List Char) : List Char → List Nat → Reading Text
  | [], _ => .error ⟨.openText, opening⟩
  | '"' :: rest, seen => .ok (Text.ofPoints seen.reverse, rest)
  | '\\' :: 'u' :: a :: b :: c :: d :: next :: rest, seen =>
    match hexUnit? a b c d with
    | none => .error ⟨.badUnicodeEscape, 'u' :: a :: b :: c :: d :: next :: rest⟩
    | some high =>
      if isHighHalf high then
        match lowHalf? (next :: rest) with
        | .error stop => .error stop
        | .ok (some low) => readText opening (rest.drop 5) (pairPoint high low :: seen)
        | .ok none => readText opening (next :: rest) (high :: seen)
      else readText opening (next :: rest) (high :: seen)
  | ['\\'], _ => .error ⟨.openText, opening⟩
  | '\\' :: c :: rest, seen =>
    if c = 'u' then .error ⟨.badUnicodeEscape, c :: rest⟩
    else match simpleEscape? c with
      | some plain => readText opening rest (plain.toNat :: seen)
      | none => .error ⟨.badEscape, '\\' :: c :: rest⟩
  | c :: rest, seen =>
    if c.toNat < 0x20 then .error ⟨.controlCharacter, c :: rest⟩
    else readText opening rest (c.toNat :: seen)
termination_by cs => cs.length

def digitsValue (digits : List Char) : Nat :=
  digits.foldl (fun n c => 10 * n + (c.toNat - '0'.toNat)) 0

/-- The digits before the point: a zero alone, or digits that do not start with one. -/
def readWhole : List Char → Option (List Char × List Char)
  | [] => none
  | c :: rest =>
    if c = '0' then some ([c], rest)
    else if c.isDigit then some ((c :: rest).span Char.isDigit)
    else none

def readFraction (cs : List Char) : List Char × List Char :=
  match cs with
  | '.' :: rest =>
    match rest.span Char.isDigit with
    | ([], _) => ([], cs)
    | found => found
  | _ => ([], cs)

def readExponent (cs : List Char) : Option Int × List Char :=
  match cs with
  | mark :: rest =>
    if mark = 'e' ∨ mark = 'E' then
      let (negative, body) := match rest with
        | '-' :: body => (true, body)
        | '+' :: body => (false, body)
        | body => (false, body)
      match body.span Char.isDigit with
      | ([], _) => (none, cs)
      | (digits, behind) =>
        let size : Int := digitsValue digits
        (some (if negative then -size else size), behind)
    else (none, cs)
  | [] => (none, cs)

def maxDigits : Nat := 4300

def readNumber (cs : List Char) : Reading Value :=
  let (negative, body) := match cs with
    | '-' :: body => (true, body)
    | body => (false, body)
  match readWhole body with
  | none => .error ⟨.expectingValue, cs⟩
  | some (whole, rest) =>
    let (fraction, rest) := readFraction rest
    let (exponent, rest) := readExponent rest
    if fraction.isEmpty && exponent.isNone then
      if whole.length > maxDigits then .error ⟨.tooManyDigits whole.length, cs⟩
      else
        let size : Int := digitsValue whole
        .ok (.int (if negative then -size else size), rest)
    else
      let scale : Int := exponent.getD 0 - fraction.length
      .ok (.double (Double.ofDecimal negative (digitsValue (whole ++ fraction)) scale), rest)

def readPlain : List Char → Reading Value
  | 'n' :: 'u' :: 'l' :: 'l' :: rest => .ok (.null, rest)
  | 't' :: 'r' :: 'u' :: 'e' :: rest => .ok (.bool true, rest)
  | 'f' :: 'a' :: 'l' :: 's' :: 'e' :: rest => .ok (.bool false, rest)
  | 'N' :: 'a' :: 'N' :: rest => .ok (.double Double.nan, rest)
  | 'I' :: 'n' :: 'f' :: 'i' :: 'n' :: 'i' :: 't' :: 'y' :: rest =>
    .ok (.double (Double.infinity false), rest)
  | '-' :: 'I' :: 'n' :: 'f' :: 'i' :: 'n' :: 'i' :: 't' :: 'y' :: rest =>
    .ok (.double (Double.infinity true), rest)
  | cs => readNumber cs

mutual

/-- Reads one value. Each step that spends fuel is paid for by a character read before
the next two, so twice the length of the text is enough. `room` is how many lists and objects
there may still be in each other. -/
def readValue : Nat → Nat → List Char → Reading Value
  | 0, _, cs => .error ⟨.expectingValue, cs⟩
  | fuel + 1, room, cs =>
    match cs with
    | '"' :: rest => (readText cs rest []).map fun (t, behind) => (.scalar (.text t), behind)
    | '\x7b' :: rest =>
      if room = 0 then .error ⟨.tooDeep "object", cs⟩
      else match skipBlank rest with
        | '\x7d' :: behind => .ok (.object [], behind)
        | body => readFields fuel (room - 1) [] body
    | '[' :: rest =>
      if room = 0 then .error ⟨.tooDeep "array", cs⟩
      else match skipBlank rest with
        | ']' :: behind => .ok (.list [], behind)
        | body => readItems fuel (room - 1) [] body
    | _ => readPlain cs

def readItems : Nat → Nat → List Value → List Char → Reading Value
  | 0, _, _, cs => .error ⟨.expectingValue, cs⟩
  | fuel + 1, room, seen, cs =>
    match readValue fuel room cs with
    | .error stop => .error stop
    | .ok (v, behind) =>
      match skipBlank behind with
      | ']' :: rest => .ok (.list (v :: seen).reverse, rest)
      | ',' :: rest => readItems fuel room (v :: seen) (skipBlank rest)
      | other => .error ⟨.expectingComma, other⟩

def readFields : Nat → Nat → List (Text × Value) → List Char → Reading Value
  | 0, _, _, cs => .error ⟨.expectingName, cs⟩
  | fuel + 1, room, seen, cs =>
    match cs with
    | '"' :: rest =>
      match readText cs rest [] with
      | .error stop => .error stop
      | .ok (name, behind) =>
        match skipBlank behind with
        | ':' :: body =>
          match readValue fuel room (skipBlank body) with
          | .error stop => .error stop
          | .ok (v, behind) =>
            let fields := Value.setField seen name v
            match skipBlank behind with
            | '\x7d' :: rest => .ok (.object fields, rest)
            | ',' :: rest => readFields fuel room fields (skipBlank rest)
            | other => .error ⟨.expectingComma, other⟩
        | other => .error ⟨.expectingColon, other⟩
    | _ => .error ⟨.expectingName, cs⟩

end

def maxNesting : Nat := 989

def readAll (cs : List Char) : Except Stop Value :=
  match cs with
  | '\ufeff' :: _ => .error ⟨.byteOrderMark, cs⟩
  | _ =>
    match readValue (2 * cs.length + 2) maxNesting (skipBlank cs) with
    | .error stop => .error stop
    | .ok (v, behind) =>
      match skipBlank behind with
      | [] => .ok v
      | rest => .error ⟨.trailingText, rest⟩

structure Malformed where
  fault : Fault
  offset : Nat
  line : Nat
  column : Nat

def Malformed.locate (cs : List Char) (stop : Stop) : Malformed :=
  let offset := cs.length - stop.unread.length
  let before := cs.take offset
  { fault := stop.fault
    offset
    line := before.count '\n' + 1
    column := (before.reverse.takeWhile (· ≠ '\n')).length + 1 }

def Fault.describe : Fault → String
  | .expectingValue => "Expecting value"
  | .expectingName => "Expecting property name enclosed in double quotes"
  | .expectingColon => "Expecting ':' delimiter"
  | .expectingComma => "Expecting ',' delimiter"
  | .openText => "Unterminated string starting at"
  | .controlCharacter => "Invalid control character at"
  | .badEscape => "Invalid \\escape"
  | .badUnicodeEscape => "Invalid \\uXXXX escape"
  | .trailingText => "Extra data"
  | .byteOrderMark => "Unexpected UTF-8 BOM (decode using utf-8-sig)"
  | .tooManyDigits count =>
    "Exceeds the limit (" ++ toString maxDigits ++
      " digits) for integer string conversion: value has " ++ toString count ++
      " digits; use sys.set_int_max_str_digits() to increase the limit"
  | .tooDeep kind =>
    "maximum recursion depth exceeded while decoding a JSON " ++ kind ++ " from a unicode string"

/-- What exceeds a limit is reported without its place. -/
def Malformed.message (m : Malformed) : String :=
  match m.fault with
  | .tooManyDigits _ | .tooDeep _ => m.fault.describe
  | _ =>
    m.fault.describe ++ ": line " ++ toString m.line ++ " column " ++ toString m.column ++
      " (char " ++ toString m.offset ++ ")"

def parse (cs : List Char) : Except Malformed Value :=
  (readAll cs).mapError (Malformed.locate cs)

def unifyLineEnds : List Char → List Char
  | [] => []
  | '\r' :: '\n' :: rest => '\n' :: unifyLineEnds rest
  | c :: rest => (if c = '\r' then '\n' else c) :: unifyLineEnds rest

end LineClosure.Document
