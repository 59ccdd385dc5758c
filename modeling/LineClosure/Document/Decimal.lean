import LineClosure.Document.Double

/-! The shortest decimal of a double: the fewest digits that still round to it, and of
those the nearest to its exact value. The search is exact. On the grid of each digit
count only the two neighbours of the value can lie in the interval of reals that round to
it, so the first grid with a hit has the fewest digits. -/

namespace LineClosure

/-- `digits * 10 ^ exponent`. -/
structure Decimal where
  digits : Nat
  exponent : Int
deriving DecidableEq

namespace Decimal

def compareDyadic (d : Decimal) (b : Nat) (s : Int) : Ordering :=
  compare (d.digits * pow10 d.exponent.toNat * pow2 (-s).toNat)
    (b * pow2 s.toNat * pow10 (-d.exponent).toNat)

/-- The reals that round to `m * 2 ^ q`, in units of `2 ^ (q - 2)`. Below a power of two
the grid of doubles is twice as fine. An even significand keeps both ends. -/
def roundsTo (d : Decimal) (m : Nat) (q : Int) : Bool :=
  let lower := if m = pow2 52 ∧ q > -1074 then 4 * m - 1 else 4 * m - 2
  let upper := 4 * m + 2
  match d.compareDyadic lower (q - 2), d.compareDyadic upper (q - 2) with
  | .gt, .lt => true
  | .eq, _ | _, .eq => m % 2 = 0
  | _, _ => false

def leadingExponent (m : Nat) (q : Int) : Int :=
  let num := m * pow2 q.toNat
  let den := pow2 (-q).toNat
  if num ≥ den then Double.digitCount (num / den) - 1
  else
    let places := Double.digitCount (den / num)
    if num * pow10 (places - 1) ≥ den then -(places - 1 : Nat) else -places

def floorOn (m : Nat) (q exponent : Int) : Decimal :=
  ⟨m * pow2 q.toNat * pow10 (-exponent).toNat / (pow2 (-q).toNat * pow10 exponent.toNat), exponent⟩

def nearer (low high : Decimal) (m : Nat) (q : Int) : Decimal :=
  let middle : Decimal := ⟨low.digits + high.digits, low.exponent⟩
  match middle.compareDyadic (2 * m) q with
  | .lt => high
  | .gt => low
  | .eq => if low.digits % 2 = 0 then low else high

def candidate (m : Nat) (q exponent : Int) : Option Decimal :=
  let low := floorOn m q exponent
  let high : Decimal := ⟨low.digits + 1, exponent⟩
  match low.digits ≠ 0 && low.roundsTo m q, high.roundsTo m q with
  | true, true => some (nearer low high m q)
  | true, false => some low
  | false, true => some high
  | false, false => none

/-- Tries ever finer grids. Seventeen digits always suffice; the last grid is the answer
in any case. -/
def search (m : Nat) (q exponent : Int) : Nat → Decimal
  | 0 => floorOn m q exponent
  | more + 1 => (candidate m q exponent).getD (search m q (exponent - 1) more)

def dropZeros : Nat → Decimal → Decimal
  | 0, d => d
  | fuel + 1, d =>
    if d.digits ≠ 0 ∧ d.digits % 10 = 0 then dropZeros fuel ⟨d.digits / 10, d.exponent + 1⟩ else d

def shortest (m : Nat) (q : Int) : Decimal :=
  let found := search m q (leadingExponent m q) 17
  dropZeros (Double.digitCount found.digits) found

end Decimal
end LineClosure
