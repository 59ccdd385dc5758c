import LineClosure.Document.Text

/-! The names of files. A name is a row of bytes, which are shown as UTF-8. A byte that is part
of no character is shown as half a surrogate pair, the byte `0x80` as `0xdc80` and so on, and
such a half in a text stands for that byte. The other halves stand for no bytes. -/

namespace LineClosure.FileName

/-- Half a pair that stands for a byte. -/
def isLooseByte (point : Nat) : Bool := 0xdc80 ≤ point && point < 0xdd00

def hasBytes (t : Text) : Bool := t.points.all fun point => !isHalf point || isLooseByte point

def pointBytes (point : Nat) : List UInt8 :=
  if isLooseByte point then [UInt8.ofNat (point - 0xdc00)]
  else (String.singleton (Char.ofNat point)).toUTF8.data.toList

def bytes : Text → List UInt8
  | .whole s => s.toUTF8.data.toList
  | .torn points _ => points.flatMap pointBytes

def byteSize : Text → Nat
  | .whole s => s.utf8ByteSize
  | t => (bytes t).length

def leading? (bytes : List UInt8) : Option (Char × Nat) :=
  [1, 2, 3, 4].findSome? fun width =>
    match (String.fromUTF8? ⟨(bytes.take width).toArray⟩).map String.toList with
    | some [c] => some (c, width)
    | _ => none

/-- The code points that bytes are shown as, behind so many that are shown already. -/
def shown : Nat → List UInt8 → List Nat
  | _, [] => []
  | covered + 1, _ :: rest => shown covered rest
  | 0, byte :: rest =>
    match leading? (byte :: rest) with
    | some (c, width) => c.toNat :: shown (width - 1) rest
    | none => (0xdc00 + byte.toNat) :: shown 0 rest

/-- The text that the bytes of a text are shown as. Loose bytes may come together and be
characters, so two texts name the same file just if they have the same form here. -/
def normal : Text → Text
  | .whole s => s
  | t => if hasBytes t then Text.ofPoints (shown 0 (bytes t)) else t

end LineClosure.FileName
