import LineClosure.Calendar.DateText
import LineClosure.Closure.Basic
import LineClosure.Document.Writer
import LineClosure.Export.Report

/-! How closures and reports are laid out as documents. Timetables are written in full, all
other entities of a closure by identifier. -/

namespace LineClosure

def Tally.document (t : Tally) : Value :=
  .object (t.fields.map fun field => (field.1, .int field.2))

def CalendarDay.document (day : CalendarDay) : Value :=
  .object [("date", .text day.day.text), ("included", day.included)]

def Period.document (p : Period) : Value :=
  .object [("start", .text p.start.text), ("end", .text p.finish.text)]

def dateDocument : Option Date → Value
  | some d => .text d.text
  | none => .null

def Timetable.document (t : Timetable) : Value :=
  .object [
    ("id", .scalar t.id),
    ("day_types", .list (t.dayTypes.map fun type => .text type.text)),
    ("calendar_days", .list (t.calendarDays.map CalendarDay.document)),
    ("periods", .list (t.periods.map Period.document)),
    ("start_of_period", dateDocument t.startOfPeriod),
    ("end_of_period", dateDocument t.endOfPeriod)]

def Closure.document (c : Closure) (line : Line) : Value :=
  let sets : List (Text × Value) :=
    c.idSets.map fun (name, ids) => (.whole name, .list (ids.map .scalar))
  .object (
    ("line", .scalar line.id) ::
    ("network", match c.network with
      | some network => .scalar network.id
      | none => .null) ::
    ("timetables", .list (c.timetables.members.map Timetable.document)) ::
    ("stats", c.tally.document) :: sets)

def LineError.document (e : LineError) : Value :=
  .object [("code", .text e.code.text), ("description", e.description)]

def LineReport.document (line : LineReport) : Value :=
  .object [
    ("line_id", line.lineId),
    ("name", line.name),
    ("status", .text line.state.text),
    ("stats", line.tally.document),
    ("errors", .list (line.errors.map LineError.document))]

/-- The document of a report. The files are not part of it. -/
def ExportReport.document (report : ExportReport) : Value :=
  .object [
    ("lines", .list (report.lines.map LineReport.document)),
    ("stats", report.total.document)]

end LineClosure
