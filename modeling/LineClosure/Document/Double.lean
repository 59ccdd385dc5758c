/-! Binary64 numbers, held by their bit patterns. A document number with a point or an
exponent is one of them; everything said about its value goes through `meaning`, which
reads the pattern as an exact dyadic, and back through `ofRatio`, which rounds to nearest
with ties to even. -/

namespace LineClosure

abbrev pow2 (k : Nat) : Nat := Nat.pow 2 k

abbrev pow10 (k : Nat) : Nat := Nat.pow 10 k

/-- The bits are the number: equality is decidable, and tells `0.0` from `-0.0`. -/
structure Double where
  bits : UInt64
deriving DecidableEq, Inhabited

namespace Double

/-- What a bit pattern stands for. A finite number is `m * 2 ^ q`, with its sign apart. -/
inductive Meaning where
  | nan
  | infinite (negative : Bool)
  | finite (negative : Bool) (m : Nat) (q : Int)

def meaning (d : Double) : Meaning :=
  let word := d.bits.toNat
  let negative := word / pow2 63 == 1
  let exponent : Nat := word / pow2 52 % pow2 11
  let fraction := word % pow2 52
  if exponent = 2047 then
    if fraction = 0 then .infinite negative else .nan
  else if exponent = 0 then .finite negative fraction (-1074)
  else .finite negative (fraction + pow2 52) ((exponent : Int) - 1075)

def nan : Double := ⟨0x7ff8000000000000⟩

def infinity (negative : Bool) : Double :=
  if negative then ⟨0xfff0000000000000⟩ else ⟨0x7ff0000000000000⟩

def roundQuotient (num den : Nat) : Nat :=
  let quotient := num / den
  let twice := 2 * (num % den)
  if twice > den ∨ (twice = den ∧ quotient % 2 = 1) then quotient + 1 else quotient

def roundScaled (num den : Nat) (shift : Int) : Nat :=
  roundQuotient (num * pow2 shift.toNat) (den * pow2 (-shift).toNat)

/-- The double nearest to `num / den`. The significand is added to the exponent field
shifted into place, so a significand that rounds up to `2 ^ 53` carries by itself. -/
def ofRatio (negative : Bool) (num den : Nat) : Double :=
  if num = 0 then ⟨if negative then 0x8000000000000000 else 0⟩
  else
    let estimate : Int := (num.log2 : Int) - (den.log2 : Int)
    let below : Bool := num * pow2 (-estimate).toNat < den * pow2 estimate.toNat
    let q : Int := max ((if below then estimate - 1 else estimate) - 52) (-1074)
    let pattern := roundScaled num den (-q) + (q + 1074).toNat * pow2 52
    if pattern ≥ 0x7ff0000000000000 then infinity negative
    else ⟨UInt64.ofNat (if negative then pattern + pow2 63 else pattern)⟩

def digitCount (n : Nat) : Nat := (Nat.toDigits 10 n).length

/-- The double nearest to `digits * 10 ^ exponent`. Far outside the range of doubles the
answer is known without writing the power out. -/
def ofDecimal (negative : Bool) (digits : Nat) (exponent : Int) : Double :=
  let magnitude : Int := digitCount digits + exponent
  if digits = 0 ∨ magnitude < -400 then ofRatio negative 0 1
  else if magnitude > 400 then infinity negative
  else ofRatio negative (digits * pow10 exponent.toNat) (pow10 (-exponent).toNat)

def ofInt (n : Int) : Double :=
  ofRatio (n < 0) n.natAbs 1

def isZero (d : Double) : Bool :=
  match d.meaning with
  | .finite _ 0 _ => true
  | _ => false

def isNaN (d : Double) : Bool :=
  match d.meaning with
  | .nan => true
  | _ => false

def integer? (d : Double) : Option Int :=
  match d.meaning with
  | .finite negative m q =>
    let num := m * pow2 q.toNat
    let den := pow2 (-q).toNat
    let size : Int := (num / den : Nat)
    if num % den = 0 then some (if negative then -size else size) else none
  | _ => none

def compareInt (d : Double) (n : Int) : Option Ordering :=
  match d.meaning with
  | .nan => none
  | .infinite negative => some (if negative then .lt else .gt)
  | .finite negative m q =>
    let signed : Int := if negative then -(m : Int) else m
    some (compare (signed * pow2 q.toNat) (n * pow2 (-q).toNat))

def add (a b : Double) : Double :=
  ⟨(Float.ofBits a.bits + Float.ofBits b.bits).toBits⟩

def divNat (a : Double) (n : Nat) : Double :=
  ⟨(Float.ofBits a.bits / Float.ofBits (ofInt n).bits).toBits⟩

end Double
end LineClosure
