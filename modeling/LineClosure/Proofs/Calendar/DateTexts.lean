import LineClosure.Calendar.DateText
import Mathlib.Algebra.Ring.Nat

/-! Dates and their texts. A day has a place in the cycles of the calendar, and from there its
year, its month and its day of the month lead back to it; each of the three is written with as
many digits as are read. So a date is read back from its text. -/

namespace LineClosure

namespace Calendar

theorem isLeap_iff {year : Nat} :
    isLeap year = true ↔ year % 4 = 0 ∧ (year % 100 ≠ 0 ∨ year % 400 = 0) := by
  simp only [isLeap, Bool.and_eq_true, Bool.or_eq_true, decide_eq_true_eq]

/-- Where a day is in the cycles of 400, 100, 4 years and one. Only the last year of a cycle has
a last day more, and the last year of a century lacks it unless the century is the last one. -/
structure Place where
  era : Nat
  century : Nat
  four : Nat
  single : Nat
  day : Nat
  century_le : century ≤ 3
  four_le : four ≤ 24
  single_le : single ≤ 3
  day_le : day ≤ 365
  leap : day = 365 → single = 3 ∧ (four < 24 ∨ century = 3)

namespace Place

def number (p : Place) : Nat :=
  146097 * p.era + 36524 * p.century + 1461 * p.four + 365 * p.single + p.day

def year (p : Place) : Nat := 400 * p.era + 100 * p.century + 4 * p.four + p.single + 1

theorem daysBeforeYear_year (p : Place) : daysBeforeYear p.year + p.day = p.number := by
  obtain ⟨era, century, four, single, day, century_le, four_le, single_le, _, _⟩ := p
  have fours : (400 * era + 100 * century + 4 * four + single) / 4 =
      100 * era + 25 * century + four := by omega
  have centuries : (400 * era + 100 * century + 4 * four + single) / 100 =
      4 * era + century := by omega
  have eras : (400 * era + 100 * century + 4 * four + single) / 400 = era := by omega
  simp only [daysBeforeYear, year, number, Nat.add_sub_cancel, fours, centuries, eras]
  omega

theorem day_lt (p : Place) : p.day < (monthLengths p.year).sum := by
  obtain ⟨era, century, four, single, day, century_le, four_le, single_le, day_le, leap⟩ := p
  have total : ∀ year, (monthLengths year).sum = if isLeap year then 366 else 365 := by
    intro year
    unfold monthLengths
    split <;> rfl
  rw [total]
  dsimp only
  split
  · omega
  · next common =>
    -- the last day that a common year lacks is that of a leap year
    refine Nat.lt_of_le_of_ne day_le fun last => common ?_
    obtain ⟨rfl, inside⟩ := leap last
    rw [isLeap_iff]
    simp only [year]
    omega

theorem year_le (p : Place) (ends : p.number ≤ 3652058) : p.year ≤ 9999 := by
  obtain ⟨era, century, four, single, day, century_le, four_le, single_le, _, _⟩ := p
  simp only [number, year] at ends ⊢
  omega

end Place

theorem place_of_number (number : Nat) :
    ∃ p : Place, p.number = number ∧ p.year = yearOf number := by
  have year : yearOf number =
      let inEra := number % 146097
      let century := min (inEra / 36524) 3
      let inCentury := inEra - century * 36524
      400 * (number / 146097) + 100 * century + 4 * (inCentury / 1461) +
        min (inCentury % 1461 / 365) 3 + 1 := rfl
  dsimp only at year
  -- each cycle is split off on its own, so that only two divisions are in sight at a time
  generalize hasEra : number % 146097 = inEra at year
  have eras : inEra < 146097 := hasEra ▸ Nat.mod_lt _ (by decide)
  generalize hasCentury : min (inEra / 36524) 3 = century at year
  generalize hasRest : inEra - century * 36524 = inCentury at year
  have centuries : century ≤ 3 ∧ inEra = century * 36524 + inCentury ∧
      inCentury ≤ 36524 ∧ (inCentury = 36524 → century = 3) := by omega
  generalize hasFour : inCentury / 1461 = four at year
  generalize hasDay : inCentury % 1461 = inFour at year
  have fours : four ≤ 24 ∧ inCentury = 1461 * four + inFour ∧ inFour ≤ 1460 ∧
      (inFour = 1460 → four < 24 ∨ century = 3) := by omega
  generalize hasSingle : min (inFour / 365) 3 = single at year
  have singles : single ≤ 3 ∧ single * 365 ≤ inFour ∧ inFour - single * 365 ≤ 365 ∧
      (inFour - single * 365 = 365 → single = 3 ∧ inFour = 1460) := by omega
  refine ⟨⟨number / 146097, century, four, single, inFour - single * 365, centuries.1, fours.1,
    singles.1, singles.2.2.1, fun last => ?_⟩, ?_, year.symm⟩
  · obtain ⟨third, whole⟩ := singles.2.2.2 last
    exact ⟨third, fours.2.2.2 whole⟩
  · simp only [Place.number]
    omega

theorem monthDay_of_lt {lengths : List Nat} {day : Nat} (inside : day < lengths.sum) :
    ∃ month rest length, monthDay lengths day = (month + 1, rest + 1) ∧
      lengths[month]? = some length ∧ rest < length ∧ (lengths.take month).sum + rest = day := by
  induction lengths generalizing day with
  | nil => cases inside
  | cons length later ih =>
    rw [monthDay]
    split
    · next here => exact ⟨0, day, length, rfl, rfl, here, by simp⟩
    · next past =>
      rw [List.sum_cons] at inside
      have shorter : day - length < later.sum := by omega
      obtain ⟨month, rest, other, found, has, fits, sum⟩ := ih shorter
      refine ⟨month + 1, rest, other, by rw [found], has, fits, ?_⟩
      rw [List.take_succ_cons, List.sum_cons]
      omega

theorem day_of_date (d : Date) : 1 ≤ d.year ∧ d.year ≤ 9999 ∧ daysBeforeYear d.year ≤ d.number ∧
    d.number - daysBeforeYear d.year < (monthLengths d.year).sum := by
  obtain ⟨p, number, year⟩ := place_of_number d.number
  have days := p.daysBeforeYear_year
  have inside := p.day_lt
  have named : d.year = p.year := year.symm
  rw [named]
  refine ⟨Nat.le_add_left 1 _, p.year_le (number ▸ d.in_range), by omega, ?_⟩
  rw [← number, ← days, Nat.add_sub_cancel_left]
  exact inside

theorem date?_of_date (d : Date) : date? d.year d.monthDay.1 d.monthDay.2 = some d := by
  obtain ⟨first, last, below, inside⟩ := day_of_date d
  obtain ⟨month, rest, length, found, has, fits, sum⟩ := monthDay_of_lt inside
  have split : d.monthDay = (month + 1, rest + 1) := found
  have number : daysBeforeYear d.year +
      ((monthLengths d.year).take month).foldl (· + ·) 0 + rest = d.number := by
    rw [← List.sum_eq_foldl]
    omega
  rw [split, date?]
  dsimp only
  rw [Nat.add_sub_cancel, has]
  dsimp only
  rw [if_pos ⟨first, last, by omega, by omega, fits⟩, Nat.add_sub_cancel, number]
  exact dif_pos d.in_range

end Calendar

namespace Date

/-! ## Digits -/

theorem digit?_digitChar : ∀ n < 10, digit? (Nat.digitChar n) = some n := by decide

theorem padded_one {n : Nat} (small : n < 10) : padded 1 n = [Nat.digitChar n] := by
  rw [padded, Nat.toDigits_of_lt_base small]
  rfl

theorem padded_succ (width n : Nat) :
    padded (width + 2) n = padded (width + 1) (n / 10) ++ [Nat.digitChar (n % 10)] := by
  unfold padded
  dsimp only
  by_cases small : n < 10
  · rw [Nat.div_eq_of_lt small, Nat.mod_eq_of_lt small, Nat.toDigits_of_lt_base small,
      Nat.toDigits_zero]
    have zeros : List.replicate (width + 1) '0' = List.replicate width '0' ++ ['0'] :=
      List.replicate_succ'
    exact congrArg (· ++ [Nat.digitChar n]) zeros
  · have count : width + 2 - ((Nat.toDigits 10 (n / 10)).length + 1) =
        width + 1 - (Nat.toDigits 10 (n / 10)).length := Nat.add_sub_add_right _ 1 _
    rw [Nat.toDigits_of_base_le (by decide) (Nat.not_lt.mp small), List.length_append,
      List.length_singleton, count, List.append_assoc]

theorem length_padded {width n : Nat} (fits : n < 10 ^ (width + 1)) :
    (padded (width + 1) n).length = width + 1 := by
  have digits := (Nat.length_toDigits_le_iff (by decide) (Nat.succ_pos width)).mpr fits
  rw [padded, List.length_append, List.length_replicate]
  exact Nat.sub_add_cancel digits

theorem isDigit_of_mem_padded {width n : Nat} {c : Char} (given : c ∈ padded width n) :
    c.isDigit = true := by
  rcases List.mem_append.mp given with zero | digit
  · rw [List.eq_of_mem_replicate zero]
    rfl
  · exact Nat.isDigit_of_mem_toDigits (by decide) (by decide) digit

theorem number?_succ (count n : Nat) (cs : List Char) :
    number? (count + 1) n cs = (number? count n cs).bind fun read => number? 1 read.1 read.2 := by
  induction count generalizing n cs with
  | zero => rfl
  | succ count ih =>
    cases cs with
    | nil => rfl
    | cons c rest =>
      rw [number?, number?, Option.bind_assoc]
      congr 1
      funext v
      exact ih _ _

theorem number?_padded {width n : Nat} (fits : n < 10 ^ (width + 1)) (rest : List Char) :
    number? (width + 1) 0 (padded (width + 1) n ++ rest) = some (n, rest) := by
  induction width generalizing n rest with
  | zero =>
    rw [padded_one fits, List.singleton_append, number?, digit?_digitChar n fits]
    simp [number?]
  | succ width ih =>
    have earlier : n / 10 < 10 ^ (width + 1) := by
      rw [Nat.pow_succ] at fits
      omega
    rw [number?_succ, padded_succ, List.append_assoc, ih earlier, Option.bind_some,
      List.singleton_append, number?, digit?_digitChar _ (Nat.mod_lt _ (by decide))]
    simp [number?, Nat.div_add_mod]

/-! ## Texts -/

theorem utf8ByteSize_of_small {cs : List Char} (small : ∀ c ∈ cs, c.utf8Size = 1) :
    (String.ofList cs).utf8ByteSize = cs.length := by
  induction cs with
  | nil => rfl
  | cons c rest ih =>
    rw [String.ofList_cons, String.utf8ByteSize_append, String.utf8ByteSize_singleton,
      small c List.mem_cons_self, ih fun d given => small d (List.mem_cons_of_mem c given),
      List.length_cons, Nat.add_comm]

theorem monthDay_lt (d : Date) : d.monthDay.1 < 10 ^ 2 ∧ d.monthDay.2 < 10 ^ 2 := by
  obtain ⟨_, _, _, inside⟩ := Calendar.day_of_date d
  obtain ⟨month, rest, length, found, has, fits, _⟩ := Calendar.monthDay_of_lt inside
  have split : d.monthDay = (month + 1, rest + 1) := found
  obtain ⟨early, _⟩ := List.getElem?_eq_some_iff.mp has
  have months : month < 12 := early
  have days : ∀ length ∈ Calendar.monthLengths d.year, length ≤ 31 := by
    unfold Calendar.monthLengths
    split <;> decide
  have long := days length (List.mem_of_getElem? has)
  rw [split]
  constructor
  · change month + 1 < 100
    omega
  · change rest + 1 < 100
    omega

/-- A month does not begin like a week. -/
theorem padded_ne_week {n : Nat} {rest body : List Char} :
    padded 2 n ++ rest ≠ 'W' :: body := by
  intro same
  have digits : ∀ c ∈ padded 2 n, c.isDigit = true := fun _ => isDigit_of_mem_padded
  have some : 2 ≤ (padded 2 n).length := by
    simp only [padded, List.length_append, List.length_replicate]
    omega
  cases padding : padded 2 n with
  | nil =>
    rw [padding] at some
    cases some
  | cons c tail =>
    rw [padding] at same digits
    cases same
    exact absurd (digits 'W' List.mem_cons_self) (by decide)

theorem ofChars?_chars (d : Date) : ofChars? d.chars = some d := by
  obtain ⟨_, last, _⟩ := Calendar.day_of_date d
  obtain ⟨month, day⟩ := d.monthDay_lt
  have four : d.year < 10 ^ 4 := Nat.lt_succ_of_le last
  have parts : d.chars = padded 4 d.year ++ ('-' :: (padded 2 d.monthDay.1 ++ ('-' ::
      (padded 2 d.monthDay.2 ++ [])))) := by
    simp only [chars, List.append_assoc, List.cons_append, List.append_nil]
  rw [parts, ofChars?, number?_padded four]
  simp only [Option.bind_eq_bind, Option.bind_some]
  split
  · next week => exact absurd week padded_ne_week
  · rw [number?_padded month]
    simp only [Option.bind_some, hyphen?, if_true]
    rw [number?_padded day]
    exact Calendar.date?_of_date d

theorem utf8Size_of_isDigit {c : Char} (digit : c.isDigit = true) : c.utf8Size = 1 := by
  have below : c.val ≤ 0x7f := by
    simp only [Char.isDigit, Bool.and_eq_true, decide_eq_true_eq] at digit
    exact UInt32.le_trans digit.2 (by decide)
  exact if_pos below

theorem utf8Size_of_mem_chars (d : Date) : ∀ c ∈ d.chars, c.utf8Size = 1 := by
  intro c given
  simp only [chars, List.mem_append, List.mem_cons] at given
  rcases given with (year | rfl | month) | rfl | day
  · exact utf8Size_of_isDigit (isDigit_of_mem_padded year)
  · rfl
  · exact utf8Size_of_isDigit (isDigit_of_mem_padded month)
  · rfl
  · exact utf8Size_of_isDigit (isDigit_of_mem_padded day)

theorem ofText?_text (d : Date) : ofText? d.text = some d := by
  obtain ⟨_, last, _⟩ := Calendar.day_of_date d
  obtain ⟨month, day⟩ := d.monthDay_lt
  have four : d.year < 10 ^ 4 := Nat.lt_succ_of_le last
  have size : d.text.utf8ByteSize = 10 := by
    rw [text, utf8ByteSize_of_small d.utf8Size_of_mem_chars]
    simp only [chars, List.length_append, List.length_cons, length_padded four,
      length_padded month, length_padded day]
  rw [ofText?, if_pos (by omega), text, String.toList_ofList, ofChars?_chars]

end Date
end LineClosure
