import LineClosure.Calendar.Timetable

/-! Reduction of timetables to a window of dates. Each bound takes away what lies beyond it:
single days fall out, periods fall out whole or end at the bound. -/

namespace LineClosure

structure Window where
  start : Option Date := none
  finish : Option Date := none
deriving DecidableEq

namespace Window

def isBounded (w : Window) : Bool := w.start.isSome || w.finish.isSome

end Window

/-- The side of a boundary that a reduction takes away. The boundary itself always stays. -/
inductive Side where
  | before
  | after
deriving DecidableEq

namespace Side

def cuts (side : Side) (boundary d : Date) : Bool :=
  match side with
  | .before => d < boundary
  | .after => boundary < d

end Side

def Period.isCut (side : Side) (boundary : Date) (p : Period) : Bool :=
  match side with
  | .before => side.cuts boundary p.finish
  | .after => side.cuts boundary p.start

def Period.shorten (side : Side) (boundary : Date) (p : Period) : Period :=
  match side with
  | .before => if side.cuts boundary p.start then { p with start := boundary } else p
  | .after => if side.cuts boundary p.finish then { p with finish := boundary } else p

namespace Timetable

/-- Takes away one side of a boundary. Nothing is left of a timetable if neither days nor
periods are; what is left has its limits computed anew. -/
def reduce (t : Timetable) (side : Side) (boundary : Date) : Option Timetable :=
  let days := t.calendarDays.filter fun day => !side.cuts boundary day.day
  let periods := (t.periods.filter fun p => !p.isCut side boundary).map
    (Period.shorten side boundary)
  if days.isEmpty && periods.isEmpty then none
  else some
    ({ id := t.id, version := t.version, comment := t.comment, dayTypes := t.dayTypes,
       calendarDays := days, periods } : Timetable).withLimits

/-- Reduces to a window, the start first. A window without bounds leaves the timetable as it
is, stored limits included. -/
def clip (t : Timetable) (w : Window) : Option Timetable :=
  let fromStart := match w.start with
    | some start => t.reduce .before start
    | none => some t
  match fromStart, w.finish with
  | some clipped, some finish => clipped.reduce .after finish
  | clipped, _ => clipped

end Timetable
end LineClosure
