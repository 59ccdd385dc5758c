import LineClosure.Validation.Checks
import Mathlib.Algebra.Order.Field.Rat
import Mathlib.Algebra.Order.Ring.Cast

/-! What a range check says of a value. A double is compared with an integer without rounding, so
the check is one about the number that the double stands for. What stands for no number, a NaN or
an infinity, lies in no range. -/

namespace LineClosure

/-- The number that a double stands for, if it is finite. -/
def Double.number? (d : Double) : Option ℚ :=
  match d.meaning with
  | .finite negative m q => some ((if negative then -(m : Int) else m : Int) * 2 ^ q)
  | _ => none

/-- The number that a value stands for. A truth value counts as 0 or 1. -/
def Value.number? : Value → Option ℚ
  | .bool b => some (if b then 1 else 0)
  | .int k => some k
  | .double d => d.number?
  | _ => none

def Value.LiesBetween (v : Value) (low high : Int) : Prop :=
  ∃ x ∈ v.number?, (low : ℚ) ≤ x ∧ x ≤ high

instance (v : Value) (low high : Int) : Decidable (v.LiesBetween low high) :=
  inferInstanceAs (Decidable (∃ x ∈ v.number?, (low : ℚ) ≤ x ∧ x ≤ high))

theorem isLE_iff {a b : Int} :
    some (compare a b) = some Ordering.lt ∨ some (compare a b) = some Ordering.eq ↔ a ≤ b := by
  rw [Option.some.injEq, Option.some.injEq, compare_lt_iff_lt, compare_eq_iff_eq, le_iff_lt_or_eq]

theorem isGE_iff {a b : Int} :
    some (compare a b) = some Ordering.gt ∨ some (compare a b) = some Ordering.eq ↔ b ≤ a := by
  rw [Option.some.injEq, Option.some.injEq, compare_gt_iff_gt, compare_eq_iff_eq, le_iff_lt_or_eq,
    eq_comm]

namespace Double

/-- Scaled by the powers of two on both sides of a comparison, a finite double is an integer. -/
theorem scaled (signed q : Int) :
    (signed : ℚ) * 2 ^ q * (pow2 (-q).toNat : Nat) = (signed * (pow2 q.toNat : Nat) : Int) := by
  have split : (2 : ℚ) ^ q * 2 ^ (-q).toNat = 2 ^ q.toNat := by
    have apart : q + ((-q).toNat : Int) = (q.toNat : Int) := by omega
    rw [← zpow_natCast, ← zpow_natCast, ← zpow_add₀ two_ne_zero, apart]
  have powers : ∀ k : Nat, ((pow2 k : Nat) : ℚ) = 2 ^ k := fun k => by
    rw [pow2, Nat.pow_eq, Nat.cast_pow, Nat.cast_ofNat]
  calc
    (signed : ℚ) * 2 ^ q * (pow2 (-q).toNat : Nat) = signed * (2 ^ q * 2 ^ (-q).toNat) := by
      rw [powers, mul_assoc]
    _ = (signed * (pow2 q.toNat : Nat) : Int) := by
      rw [split, Int.cast_mul, Int.cast_natCast, powers]

theorem compareInt_of_number {d : Double} {x : ℚ} (is : d.number? = some x) (n : Int) :
    ∃ a b : Int, d.compareInt n = some (compare a b) ∧ (a ≤ b ↔ x ≤ n) ∧ (b ≤ a ↔ n ≤ x) := by
  rw [number?] at is
  rw [compareInt]
  cases meant : d.meaning with
  | nan => rw [meant] at is; cases is
  | infinite negative => rw [meant] at is; cases is
  | finite negative m q =>
    rw [meant] at is
    have value := Option.some.inj is
    refine ⟨_, _, rfl, ?_⟩
    have positive : (0 : ℚ) < (pow2 (-q).toNat : Nat) := by
      exact_mod_cast Nat.pow_pos Nat.two_pos
    have right : ((n * (pow2 (-q).toNat : Nat) : Int) : ℚ) = n * (pow2 (-q).toNat : Nat) := by
      rw [Int.cast_mul, Int.cast_natCast]
    rw [← Int.cast_le (R := ℚ), ← Int.cast_le (R := ℚ), ← scaled, right, value]
    exact ⟨mul_le_mul_iff_left₀ positive, mul_le_mul_iff_left₀ positive⟩

/-- What is no number is not on the right side of both bounds. -/
theorem compareInt_of_none {d : Double} (none : d.number? = none) (low high : Int) :
    ¬((d.compareInt low = some .gt ∨ d.compareInt low = some .eq) ∧
      (d.compareInt high = some .lt ∨ d.compareInt high = some .eq)) := by
  rw [number?] at none
  rw [compareInt, compareInt]
  cases meant : d.meaning with
  | nan => simp
  | infinite negative => cases negative <;> simp
  | finite negative m q => rw [meant] at none; cases none

end Double

namespace Value

variable {v : Value}

theorem compareInt?_of_number {x : ℚ} (is : v.number? = some x) (n : Int) :
    ∃ a b : Int, v.compareInt? n = some (some (compare a b)) ∧
      (a ≤ b ↔ x ≤ n) ∧ (b ≤ a ↔ n ≤ x) := by
  have integer : ∀ k : Int, (k : ℚ) = x → (k ≤ n ↔ x ≤ n) ∧ (n ≤ k ↔ n ≤ x) := by
    intro k same
    rw [← same]
    exact ⟨Int.cast_le.symm, Int.cast_le.symm⟩
  cases v with
  | list items => cases is
  | object fields => cases is
  | scalar s =>
    cases s with
    | null => cases is
    | text t => cases is
    | bool b =>
      have value := Option.some.inj is
      exact ⟨if b then 1 else 0, n, rfl, integer _ (by rw [← value]; cases b <;> simp)⟩
    | int k => exact ⟨k, n, rfl, integer k (Option.some.inj is)⟩
    | double d =>
      obtain ⟨a, b, compares, order⟩ := Double.compareInt_of_number is n
      exact ⟨a, b, congrArg some compares, order⟩

theorem number_cases (number : v.double?.isSome = true) :
    (∃ x, v.number? = some x) ∨ ∃ d, v = .double d ∧ d.number? = none := by
  cases v with
  | list items => cases number
  | object fields => cases number
  | scalar s =>
    cases s with
    | null => cases number
    | text t => cases number
    | bool b => exact Or.inl ⟨_, rfl⟩
    | int k => exact Or.inl ⟨_, rfl⟩
    | double d =>
      cases is : d.number? with
      | some x => exact Or.inl ⟨x, is⟩
      | none => exact Or.inr ⟨d, rfl, is⟩

theorem compareInt?_of_isSome (number : v.double?.isSome = true) (n : Int) :
    ∃ order, v.compareInt? n = some order := by
  rcases number_cases number with ⟨x, is⟩ | ⟨d, rfl, _⟩
  · obtain ⟨a, b, compares, _⟩ := compareInt?_of_number is n
    exact ⟨_, compares⟩
  · exact ⟨_, rfl⟩

theorem isBetween?_eq (number : v.double?.isSome = true) (low high : Int) :
    v.isBetween? low high = some (decide (v.LiesBetween low high)) := by
  rcases number_cases number with ⟨x, is⟩ | ⟨d, rfl, none⟩
  · obtain ⟨a, b, fromLow, _, lower⟩ := compareInt?_of_number is low
    obtain ⟨c, d, toHigh, upper, _⟩ := compareInt?_of_number is high
    have lies : v.LiesBetween low high ↔ b ≤ a ∧ c ≤ d := by
      rw [LiesBetween, is, lower, upper]
      simp only [Option.mem_some_iff, exists_eq_left']
    rw [isBetween?, fromLow, toHigh]
    apply congrArg some
    rw [Bool.eq_iff_iff, decide_eq_true_iff, lies, ← isGE_iff, ← isLE_iff]
    simp only [Bool.and_eq_true, Bool.or_eq_true, decide_eq_true_eq]
  · have outside : ¬(Value.double d).LiesBetween low high := by
      rintro ⟨x, is, _⟩
      exact absurd (none.symm.trans is) (by simp)
    have apart := Double.compareInt_of_none none low high
    rw [decide_eq_false outside]
    apply congrArg some
    rw [Bool.eq_false_iff]
    intro both
    simp only [Bool.and_eq_true, Bool.or_eq_true, decide_eq_true_eq] at both
    exact apart both

end Value
end LineClosure
