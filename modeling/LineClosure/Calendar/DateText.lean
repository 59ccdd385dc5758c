import LineClosure.Calendar.Date

/-! The texts of dates. A date is shown as year, month and day; it is read from that form
and from the week form, with or without hyphens. -/

namespace LineClosure.Date

def padded (width n : Nat) : List Char :=
  let digits := Nat.toDigits 10 n
  List.replicate (width - digits.length) '0' ++ digits

def year (d : Date) : Nat := Calendar.yearOf d.number

def monthDay (d : Date) : Nat × Nat :=
  Calendar.monthDay (Calendar.monthLengths d.year) (d.number - Calendar.daysBeforeYear d.year)

def chars (d : Date) : List Char :=
  padded 4 d.year ++ '-' :: padded 2 d.monthDay.1 ++ '-' :: padded 2 d.monthDay.2

def text (d : Date) : String := String.ofList d.chars

def digit? (c : Char) : Option Nat :=
  if '0' ≤ c ∧ c ≤ '9' then some (c.toNat - '0'.toNat) else none

def number? : Nat → Nat → List Char → Option (Nat × List Char)
  | 0, n, cs => some (n, cs)
  | _ + 1, _, [] => none
  | count + 1, n, c :: rest => (digit? c).bind fun v => number? count (10 * n + v) rest

def hyphen? (used : Bool) (cs : List Char) : Option (List Char) :=
  if used then
    match cs with
    | '-' :: rest => some rest
    | _ => none
  else some cs

/-- Reads the parts of a date. Text behind a complete unhyphenated date is not looked at. -/
def ofChars? (cs : List Char) : Option Date := do
  let (year, rest) ← number? 4 0 cs
  let (used, rest) := match rest with
    | '-' :: body => (true, body)
    | body => (false, body)
  match rest with
  | 'W' :: body =>
    let (week, rest) ← number? 2 0 body
    if rest.isEmpty then Calendar.weekDate? year week 1
    else
      let (day, _) ← number? 1 0 (← hyphen? used rest)
      Calendar.weekDate? year week day
  | body =>
    let (month, rest) ← number? 2 0 body
    let (day, _) ← number? 2 0 (← hyphen? used rest)
    Calendar.date? year month day

/-- A date has 7, 8 or 10 bytes; shorter and longer texts are none. -/
def ofText? (s : String) : Option Date :=
  if s.utf8ByteSize = 7 ∨ s.utf8ByteSize = 8 ∨ s.utf8ByteSize = 10 then ofChars? s.toList else none

end LineClosure.Date
