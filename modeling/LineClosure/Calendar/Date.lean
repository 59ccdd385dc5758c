/-! Dates of the Gregorian calendar from 0001-01-01 to 9999-12-31, counted in days. Order,
weekdays and steps are those of the count; years and months appear only when a date is
read or shown. -/

namespace LineClosure

/-- A date by its number: 0 is 0001-01-01, a Monday. -/
structure Date where
  number : Nat
  in_range : number ≤ 3652058
deriving DecidableEq

namespace Date

theorem ext_number {a b : Date} (same : a.number = b.number) : a = b := by
  cases a
  cases b
  simp only at same
  subst same
  rfl

instance : Inhabited Date := ⟨⟨0, by decide⟩⟩
instance : LE Date := ⟨fun a b => a.number ≤ b.number⟩
instance : LT Date := ⟨fun a b => a.number < b.number⟩
instance (a b : Date) : Decidable (a ≤ b) := inferInstanceAs (Decidable (a.number ≤ b.number))
instance (a b : Date) : Decidable (a < b) := inferInstanceAs (Decidable (a.number < b.number))
instance : Min Date := ⟨fun a b => if a ≤ b then a else b⟩
instance : Max Date := ⟨fun a b => if a ≤ b then b else a⟩

theorem le_def {a b : Date} : a ≤ b ↔ a.number ≤ b.number := Iff.rfl
theorem lt_def {a b : Date} : a < b ↔ a.number < b.number := Iff.rfl

@[simp] theorem number_max (a b : Date) : (max a b).number = max a.number b.number := by
  change (if a.number ≤ b.number then b else a).number = _
  split <;> omega

@[simp] theorem number_min (a b : Date) : (min a b).number = min a.number b.number := by
  change (if a.number ≤ b.number then a else b).number = _
  split <;> omega

def ofNumber? (n : Nat) : Option Date :=
  if h : n ≤ 3652058 then some ⟨n, h⟩ else none

def last : Date := ⟨3652058, Nat.le_refl _⟩

/-- The day after; the last day has none. -/
def next? (d : Date) : Option Date := ofNumber? (d.number + 1)

/-- Monday is 0. -/
def weekday (d : Date) : Nat := d.number % 7

theorem next?_eq_none_iff {d : Date} : d.next? = none ↔ d = last := by
  have bound := d.in_range
  simp only [next?, ofNumber?]
  split
  · next h =>
    simp only [reduceCtorEq, false_iff]
    intro same
    rw [same] at h
    exact absurd h (by decide)
  · next h =>
    simp only [true_iff]
    exact ext_number (show d.number = 3652058 by omega)

theorem number_of_next? {d e : Date} (step : d.next? = some e) : e.number = d.number + 1 := by
  simp only [next?, ofNumber?] at step
  split at step
  · cases step
    rfl
  · cases step

end Date

namespace Calendar

def isLeap (year : Nat) : Bool :=
  year % 4 = 0 && (year % 100 ≠ 0 || year % 400 = 0)

def daysBeforeYear (year : Nat) : Nat :=
  365 * (year - 1) + (year - 1) / 4 - (year - 1) / 100 + (year - 1) / 400

def monthLengths (year : Nat) : List Nat :=
  [31, if isLeap year then 29 else 28, 31, 30, 31, 30, 31, 31, 30, 31, 30, 31]

/-- The year a day falls in, found by whole cycles of 400, 100, 4 and 1 years. The last day
of a long cycle belongs to its last part, which the caps at 3 express. -/
def yearOf (number : Nat) : Nat :=
  let inEra := number % 146097
  let century := min (inEra / 36524) 3
  let inCentury := inEra - century * 36524
  let inFour := inCentury % 1461
  400 * (number / 146097) + 100 * century + 4 * (inCentury / 1461) + min (inFour / 365) 3 + 1

def monthDay : List Nat → Nat → Nat × Nat
  | [], day => (1, day + 1)
  | length :: rest, day =>
    if day < length then (1, day + 1)
    else
      let later := monthDay rest (day - length)
      (later.1 + 1, later.2)

def date? (year month day : Nat) : Option Date :=
  match (monthLengths year)[month - 1]? with
  | none => none
  | some length =>
    if 1 ≤ year ∧ year ≤ 9999 ∧ 1 ≤ month ∧ 1 ≤ day ∧ day ≤ length then
      Date.ofNumber?
        (daysBeforeYear year + ((monthLengths year).take (month - 1)).foldl (· + ·) 0 + (day - 1))
    else none

/-- A year has a week 53 if it starts on a Thursday, or on a Wednesday with a leap day ahead. -/
def hasWeek53 (year : Nat) : Bool :=
  let first := daysBeforeYear year % 7
  first = 3 || (first = 2 && isLeap year)

/-- The date of a week and a weekday from 1. Week 1 is the week of the year's first Thursday. -/
def weekDate? (year week day : Nat) : Option Date :=
  if 1 ≤ year ∧ 1 ≤ week ∧ (week ≤ 52 ∨ (week = 53 ∧ hasWeek53 year)) ∧ 1 ≤ day ∧ day ≤ 7 then
    let first := daysBeforeYear year
    let monday := if first % 7 ≤ 3 then first - first % 7 else first + 7 - first % 7
    Date.ofNumber? (monday + 7 * (week - 1) + (day - 1))
  else none

end Calendar
end LineClosure
