import LineClosure.Calendar.Date
import LineClosure.Document.Value

/-! Timetables: the days on which the journeys that share one run. Periods contribute the
weekdays that the day types name, single days are added or taken out, and taking out wins. -/

namespace LineClosure

inductive DayType where
  | monday | tuesday | wednesday | thursday | friday | saturday | sunday
  | weekday | weekend
  | schoolHoliday | publicHoliday | marketDay
deriving DecidableEq, Inhabited

namespace DayType

def all : List DayType :=
  [monday, tuesday, wednesday, thursday, friday, saturday, sunday, weekday, weekend,
    schoolHoliday, publicHoliday, marketDay]

def text : DayType → String
  | monday => "Monday"
  | tuesday => "Tuesday"
  | wednesday => "Wednesday"
  | thursday => "Thursday"
  | friday => "Friday"
  | saturday => "Saturday"
  | sunday => "Sunday"
  | weekday => "WeekDay"
  | weekend => "WeekEnd"
  | schoolHoliday => "SchoolHoliday"
  | publicHoliday => "PublicHoliday"
  | marketDay => "MarketDay"

/-- The weekdays a day type names, Monday being 0. Holidays and market days name none. -/
def weekdays : DayType → List Nat
  | monday => [0]
  | tuesday => [1]
  | wednesday => [2]
  | thursday => [3]
  | friday => [4]
  | saturday => [5]
  | sunday => [6]
  | weekday => [0, 1, 2, 3, 4]
  | weekend => [5, 6]
  | schoolHoliday | publicHoliday | marketDay => []

end DayType

/-- A single day, put in or taken out. The mark is kept as the document has it. -/
structure CalendarDay where
  day : Date
  included : Value := .bool true

/-- Both ends belong to a period. One that starts after its end has no days. -/
structure Period where
  start : Date
  finish : Date
deriving DecidableEq

structure Timetable where
  id : Id
  version : Value := .int 1
  comment : Value := .text ""
  dayTypes : List DayType := []
  calendarDays : List CalendarDay := []
  periods : List Period := []
  startOfPeriod : Option Date := none
  endOfPeriod : Option Date := none

inductive CalendarError where
  | pastLastDay
deriving DecidableEq

def CalendarDay.isIncluded (day : CalendarDay) : Bool := day.included.isTruthy

/-- The days from `day` to `finish` that pass the test, put before `found` in falling order.
The walk has to step past `finish` to end, so it fails if `finish` is the last day of all. -/
def daysUpTo (finish : Date) (passes : Date → Bool) (day : Date) (found : List Date) :
    Except CalendarError (List Date) :=
  if day ≤ finish then
    let found := if passes day then day :: found else found
    match _step : day.next? with
    | none => .error .pastLastDay
    | some later => daysUpTo finish passes later found
  else .ok found
termination_by 3652059 - day.number
decreasing_by
  have moved := Date.number_of_next? _step
  have bound := later.in_range
  omega

namespace Timetable

def isEmpty (t : Timetable) : Bool := t.calendarDays.isEmpty && t.periods.isEmpty

def includedDays (t : Timetable) : List Date :=
  (t.calendarDays.filter CalendarDay.isIncluded).map (·.day)

def excludedDays (t : Timetable) : List Date :=
  (t.calendarDays.filter fun day => !day.isIncluded).map (·.day)

/-- Sets the limits to the first and the last day that a period or an included day names. -/
def withLimits (t : Timetable) : Timetable :=
  { t with
    startOfPeriod := (t.periods.map (·.start) ++ t.includedDays).min?
    endOfPeriod := (t.periods.map (·.finish) ++ t.includedDays).max? }

/-- Whether periods cover this day of the week; without named weekdays they cover each. -/
def coversWeekday (t : Timetable) (d : Date) : Bool :=
  let named := t.dayTypes.flatMap DayType.weekdays
  named.isEmpty || named.contains d.weekday

def periodDays (t : Timetable) : List Period → List Date → Except CalendarError (List Date)
  | [], found => .ok found
  | p :: rest, found => do
    periodDays t rest (← daysUpTo p.finish t.coversWeekday p.start found)

def activeDates (t : Timetable) : Except CalendarError (List Date) := do
  let days ← periodDays t t.periods []
  let excluded := t.excludedDays
  let running := (days.reverse ++ t.includedDays).filter fun d => !excluded.contains d
  return (running.mergeSort fun a b => a ≤ b).eraseReps

end Timetable
end LineClosure
