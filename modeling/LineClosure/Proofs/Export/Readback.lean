import LineClosure.Export.Layout
import LineClosure.Proofs.Sequence

/-! Reading a report back. The fields are found by name, so that their order in the document does
not matter, and what is found is what was laid out. -/

namespace LineClosure

namespace Value

def int? : Value → Option Int
  | .scalar (.int n) => some n
  | _ => none

def count? (v : Value) (name : String) : Option Int := (v.field? name).bind int?

end Value

def Tally.ofDocument? (v : Value) : Option Tally := do
  return {
    lines := ← v.count? "line_count"
    routes := ← v.count? "route_count"
    journeyPatterns := ← v.count? "journey_pattern_count"
    vehicleJourneys := ← v.count? "vehicle_journey_count"
    stopAreas := ← v.count? "stop_area_count"
    accessPoints := ← v.count? "access_point_count"
    connectionLinks := ← v.count? "connection_link_count"
    timetables := ← v.count? "timetable_count" }

theorem Tally.ofDocument?_document (t : Tally) : Tally.ofDocument? t.document = some t := rfl

def LineErrorCode.ofDocument? (v : Value) : Option LineErrorCode :=
  LineErrorCode.all.find? fun code => v = .text code.text

theorem LineErrorCode.ofDocument?_text (code : LineErrorCode) :
    LineErrorCode.ofDocument? (.text code.text) = some code := by
  cases code
  decide

def LineState.ofDocument? (v : Value) : Option LineState :=
  LineState.all.find? fun state => v = .text state.text

theorem LineState.ofDocument?_text (state : LineState) :
    LineState.ofDocument? (.text state.text) = some state := by
  cases state <;> decide

example : LineState.ofDocument? (.text "OK") = some .ok := by decide

def LineError.ofDocument? (v : Value) : Option LineError := do
  return {
    code := ← LineErrorCode.ofDocument? (← v.field? "code")
    description := ← v.field? "description" }

theorem LineError.ofDocument?_document (e : LineError) :
    LineError.ofDocument? e.document = some e := by
  have code : e.document.field? "code" = some (.text e.code.text) := rfl
  have description : e.document.field? "description" = some e.description := rfl
  unfold ofDocument?
  rw [code, description]
  simp only [Option.bind_eq_bind, Option.bind_some, LineErrorCode.ofDocument?_text]
  rfl

def LineReport.ofDocument? (v : Value) : Option LineReport := do
  return {
    lineId := ← v.field? "line_id"
    name := ← v.field? "name"
    state := ← LineState.ofDocument? (← v.field? "status")
    tally := ← Tally.ofDocument? (← v.field? "stats")
    errors := ← (← (← v.field? "errors").elements?).mapM LineError.ofDocument? }

theorem LineReport.ofDocument?_document (entry : LineReport) :
    LineReport.ofDocument? entry.document = some entry := by
  have lineId : entry.document.field? "line_id" = some entry.lineId := rfl
  have name : entry.document.field? "name" = some entry.name := rfl
  have state : entry.document.field? "status" = some (.text entry.state.text) := rfl
  have tally : entry.document.field? "stats" = some entry.tally.document := rfl
  have errors : entry.document.field? "errors" =
      some (.list (entry.errors.map LineError.document)) := rfl
  unfold ofDocument?
  rw [lineId, name, state, tally, errors]
  simp only [Option.bind_eq_bind, Option.bind_some, LineState.ofDocument?_text,
    Tally.ofDocument?_document, Value.elements?,
    mapM_of_reads LineError.ofDocument?_document]
  rfl

def ExportReport.ofDocument? (v : Value) : Option (List LineReport × Tally) := do
  let entries ← (← (← v.field? "lines").elements?).mapM LineReport.ofDocument?
  return (entries, ← Tally.ofDocument? (← v.field? "stats"))

theorem ExportReport.ofDocument?_document (report : ExportReport) :
    ExportReport.ofDocument? report.document = some (report.lines, report.total) := by
  have lines : report.document.field? "lines" =
      some (.list (report.lines.map LineReport.document)) := rfl
  have total : report.document.field? "stats" = some report.total.document := rfl
  unfold ofDocument?
  rw [lines, total]
  simp only [Option.bind_eq_bind, Option.bind_some, Value.elements?,
    mapM_of_reads LineReport.ofDocument?_document, Tally.ofDocument?_document]
  rfl

end LineClosure
