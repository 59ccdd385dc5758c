import LineClosure.Document.Display

/-! Reading UTF-8, and where and why bytes are none. Of each character the first byte tells how
many follow; the second one may be restricted further, so that no character has two encodings
and half a surrogate pair has none. -/

namespace LineClosure.Utf8

structure Fault where
  position : Nat
  found : List UInt8
  reason : String
deriving DecidableEq

/-- The number of bytes of a character by its first one; none if no character begins so. -/
def width? (first : UInt8) : Option Nat :=
  if first < 0x80 then some 1
  else if first < 0xc2 then none
  else if first < 0xe0 then some 2
  else if first < 0xf0 then some 3
  else if first < 0xf5 then some 4
  else none

def continues (byte : UInt8) : Bool := 0x80 ≤ byte && byte < 0xc0

def mayFollow (first second : UInt8) : Bool :=
  continues second &&
    if first = 0xe0 then 0xa0 ≤ second
    else if first = 0xed then second < 0xa0
    else if first = 0xf0 then 0x90 ≤ second
    else if first = 0xf4 then second < 0x90
    else true

def following (first : UInt8) : Nat → List UInt8 → List UInt8
  | count + 1, second :: rest =>
    if mayFollow first second then second :: (rest.take count).takeWhile continues else []
  | _, _ => []

/-- The first fault of bytes from a place on, behind so many that are read already. If nothing
else is wrong, it is the end. -/
def fault (position : Nat) : Nat → List UInt8 → Fault
  | _, [] => ⟨position, [], "unexpected end of data"⟩
  | covered + 1, _ :: rest => fault (position + 1) covered rest
  | 0, first :: rest =>
    match width? first with
    | none => ⟨position, [first], "invalid start byte"⟩
    | some width =>
      let behind := following first (width - 1) rest
      if behind.length = width - 1 then fault (position + 1) (width - 1) rest
      else
        let reason :=
          if behind.length = rest.length then "unexpected end of data"
          else "invalid continuation byte"
        ⟨position, first :: behind, reason⟩

def decode (bytes : ByteArray) : Except Fault String :=
  match String.fromUTF8? bytes with
  | some s => .ok s
  | none => .error (fault 0 0 bytes.data.toList)

def Fault.message (f : Fault) : String :=
  let found := match f.found with
    | [byte] => "byte 0x" ++ hexDigits 2 byte.toNat ++ " in position " ++ toString f.position
    | bytes =>
      "bytes in position " ++ toString f.position ++ "-" ++
        toString (f.position + bytes.length - 1)
  "'utf-8' codec can't decode " ++ found ++ ": " ++ f.reason

end LineClosure.Utf8
