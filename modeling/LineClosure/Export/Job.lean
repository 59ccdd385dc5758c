import LineClosure.Closure.Collection
import LineClosure.Export.Layout
import LineClosure.Snapshot.Load
import LineClosure.Validation.Verdict

/-! The jobs: validating a snapshot, collecting a line, and exporting the lines of a
snapshot into one file each. -/

namespace LineClosure

/-- What a job works on: the files it sees, and what it has told so far. -/
structure Desk where
  files : FileTree := {}
  events : List Event := []

abbrev Job := EStateM Failure Desk

namespace Job

def tell (events : List Event) : Job Unit :=
  modify fun desk => { desk with events := desk.events ++ events }

/-- Loads a snapshot; what loading told is told also if it fails. -/
def load (input : Text) : Job Loading := fun desk =>
  match Snapshot.load desk.files input {} with
  | .ok _ loading => .ok loading { desk with events := desk.events ++ loading.events }
  | .error failure loading =>
    .error failure { desk with events := desk.events ++ loading.events }

def judge (r : Registry) (rejected : List Text) : Job Verdict := do
  match r.validate rejected with
  | none => throw .unusableValue
  | some verdict =>
    tell verdict.events
    return verdict

def validate (input : Text) : Job Verdict := do
  let loading ← load input
  judge loading.registry (loading.rejected.map Rejection.message)

def collect (r : Registry) (line : Line) (window : Window) : Job Collection := do
  let collection := r.collect line window
  match collection.obstructed? with
  | some told =>
    tell told
    throw .unusableValue
  | none =>
    tell collection.events
    return collection

def write (folder name : Text) (document : Value) : Job Unit := do
  let content := (Document.render document).toUTF8
  match (← get).files.makeFolder folder with
  | .error e => throw (.storage e)
  | .ok files =>
    modify fun desk => { desk with files }
    match files.write folder name content with
    | .error e => throw (.storage e)
    | .ok files => modify fun desk => { desk with files }

def closureName (lineId : Id) : Text := lineId.display ++ ".json"

def writeClosure (folder : Text) (closure : Closure) : Job Text := do
  let some line := closure.line | throw .closureWithoutLine
  let name := closureName line.id
  write folder name (closure.document line)
  return name

def reportName : Text := "report.json"

def writeReport (folder : Text) (report : ExportReport) : Job Text := do
  write folder reportName report.document
  return reportName

end Job

/-- What is to be exported. Without line identifiers it is every line. -/
structure ExportRequest where
  lineIds : Value := .null
  window : Window := {}
  writeReport : Bool := true

namespace ExportRequest

def checkWindow (request : ExportRequest) : Except Failure Unit :=
  match request.window.start, request.window.finish with
  | some start, some finish =>
    if finish < start then .error (.reversedWindow start finish) else .ok ()
  | _, _ => .ok ()

/-- A requested identifier that names no line. Only texts can be told. -/
def unknownName : Id → Except Failure Text
  | .text t => .ok t
  | _ => .error .unusableValue

/-- The requested lines. All requested identifiers have to name one. -/
def lines (request : ExportRequest) (r : Registry) : Except Failure (List Line) := do
  if request.lineIds.isNull then return r.lines.members
  let some requested := request.lineIds.elements? | throw .unusableValue
  let ids ← requested.mapM Row.identifier
  let unknown := ids.filter fun id => !r.lines.contains id
  if !unknown.isEmpty then
    throw (.unknownLines (← unknown.mapM unknownName))
  return ids.filterMap r.lines.find?

end ExportRequest

namespace Job

def lineReport (line : Line) (collection : Collection) : LineReport :=
  { lineId := .scalar line.id
    name := .scalar (.text (line.name.display ++ " (" ++ line.number.display ++ ")"))
    state := if collection.valid then .ok else .error
    tally := collection.closure.tally
    errors := if collection.valid then [] else [⟨.noDataOnPeriod, .text "no data on period"⟩] }

/-- Exports one line and enters it into the report. A line without data is entered too. -/
def exportLine (r : Registry) (window : Window) (folder : Text) (report : ExportReport)
    (line : Line) : Job ExportReport := do
  let collection ← collect r line window
  let entry := lineReport line collection
  if collection.valid then
    let name ← writeClosure folder collection.closure
    let report := report.addFile name
    return { report with lines := report.lines ++ [entry], total := report.total + entry.tally }
  else
    tell [.noData line.id]
    return { report with lines := report.lines ++ [entry] }

/-- Exports the requested lines of a snapshot. Nothing is written before the network has
been found valid and all requested lines are known. -/
def exportLines (input output : Text) (request : ExportRequest) : Job ExportReport := do
  if let .error failure := request.checkWindow then throw failure
  let loading ← load input
  let r := loading.registry
  let verdict ← judge r (loading.rejected.map Rejection.message)
  if !verdict.isValid then throw (.invalidNetwork verdict.defects.length)
  let lines ← match request.lines r with
    | .ok lines => pure lines
    | .error failure => throw failure
  let report ← lines.foldlM (exportLine r request.window output) {}
  if request.writeReport then
    return report.addFile (← writeReport output report)
  else return report

end Job
end LineClosure
