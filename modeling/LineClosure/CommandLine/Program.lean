import LineClosure.CommandLine.Options
import LineClosure.Export.Job

/-! The command line program: its grammar, its commands, and what it prints. -/

namespace LineClosure.CommandLine

def programName : String := "transit-export"
def versionNumber : String := "0.1.0"

/-- A bound of the window. One whose value was taken away is given, but is no date. -/
inductive Bound where
  | absent
  | date (d : Date)
  | valueless
deriving DecidableEq

def Bound.date? : Bound → Option Date
  | date d => some d
  | _ => none

/-- The options of a command, as far as they are given. A path is missing if its value was
taken away. -/
structure Settings where
  command : Option String := none
  input : Option Text := none
  output : Option Text := some "./export"
  lines : List Value := []
  start : Bound := .absent
  finish : Bound := .absent
  report : Bool := true

def readBound : Option Text → Except Text Bound
  | none => .ok .valueless
  | some text =>
    let found := match text with
      | .whole s => Date.ofText? s
      | .torn .. => none
    match found with
    | some d => .ok (.date d)
    | none => .error ("invalid date (expected YYYY-MM-DD): " ++ text)

/-- A line without a value is an empty list, which names nothing. -/
def readLine : Option Text → Value
  | none => .list []
  | some text => .scalar (.text text)

/-- Only `true`, in any case of letters, is yes. -/
def readSwitch : Option Text → Bool
  | some (.whole s) => s.toLower = "true"
  | _ => false

def helpOption : OptionSpec Settings := ⟨["-h", "--help"], .help⟩

def inputOption : OptionSpec Settings :=
  ⟨["--input"], .value fun text s => .ok { s with input := text }⟩

/-- More or less talk makes no difference to what is printed. -/
def mainOptions : List (OptionSpec Settings) :=
  [helpOption, ⟨["--version"], .version⟩, ⟨["-v", "--verbose"], .switch id⟩]

def exportOptions : List (OptionSpec Settings) :=
  [helpOption, inputOption,
    ⟨["--output"], .value fun text s => .ok { s with output := text }⟩,
    ⟨["--line"], .value fun text s => .ok { s with lines := s.lines ++ [readLine text] }⟩,
    ⟨["--start-date"], .value fun text s => do return { s with start := ← readBound text }⟩,
    ⟨["--end-date"], .value fun text s => do return { s with finish := ← readBound text }⟩,
    ⟨["--report"], .value fun text s => .ok { s with report := readSwitch text }⟩]

def validateOptions : List (OptionSpec Settings) := [helpOption, inputOption]

def parseCommand (arguments : List Text) (outcome : Outcome Settings) :
    Except Stop (Outcome Settings) :=
  let under (name : String) (options : List (OptionSpec Settings)) (arguments : List Text) :=
    let settings := { outcome.settings with command := some name }
    match parse options ["--input"] none arguments settings with
    | .ok inner =>
      .ok
        { outcome with
          settings := inner.settings
          leftOver := outcome.leftOver ++ inner.leftOver }
    | .error reason => .error (.within name reason)
  match arguments with
  | "export" :: rest => under "export" exportOptions rest
  | "validate" :: rest => under "validate" validateOptions rest
  | other :: _ =>
    .error (.error ("argument command: invalid choice: " ++ quoted other ++
      " (choose from 'export', 'validate')"))
  | [] => .ok outcome

def readSettings (arguments : List Text) : Except Stop Settings := do
  let outcome ← parse mainOptions [] (some parseCommand) arguments {}
  if outcome.leftOver.isEmpty then return outcome.settings
  else throw (.error ("unrecognized arguments: " ++ Text.join " " outcome.leftOver))

def usage : Option String → String
  | none =>
    "usage: " ++ programName ++ " [-h] [--version] [-v] \x7bexport,validate\x7d ...\n"
  | some "export" =>
    "usage: " ++ programName ++ " export [-h] --input INPUT [--output OUTPUT] [--line LINE]\n" ++
    "                             [--start-date START_DATE] [--end-date END_DATE]\n" ++
    "                             [--report REPORT]\n"
  | some command => "usage: " ++ programName ++ " " ++ command ++ " [-h] --input INPUT\n"

def help : Option String → String
  | none =>
    usage none ++
    "\nExport transit lines as de-duplicated closures over a date window\n" ++
    "\npositional arguments:\n" ++
    "  \x7bexport,validate\x7d  Command to execute\n" ++
    "    export           Export lines of a network\n" ++
    "    validate         Validate a network file\n" ++
    "\noptions:\n" ++
    "  -h, --help         show this help message and exit\n" ++
    "  --version          show program's version number and exit\n" ++
    "  -v, --verbose      Verbose output\n"
  | some "export" =>
    usage (some "export") ++
    "\noptions:\n" ++
    "  -h, --help            show this help message and exit\n" ++
    "  --input INPUT         Path to network JSON file\n" ++
    "  --output OUTPUT       Output directory (default: ./export)\n" ++
    "  --line LINE           Line identifier to export, repeatable (default: every\n" ++
    "                        line)\n" ++
    "  --start-date START_DATE\n" ++
    "                        First date of the export window, YYYY-MM-DD (default:\n" ++
    "                        unbounded)\n" ++
    "  --end-date END_DATE   Last date of the export window, YYYY-MM-DD (default:\n" ++
    "                        unbounded)\n" ++
    "  --report REPORT       Write report.json (default: true)\n"
  | some command =>
    usage (some command) ++
    "\noptions:\n" ++
    "  -h, --help     show this help message and exit\n" ++
    "  --input INPUT  Path to network JSON file\n"

structure Exit where
  code : Nat
  output : Text := ""
  complaint : Text := ""
  files : FileTree

def lines (texts : List Text) : Text := texts.foldl (fun output text => output ++ text ++ "\n") ""

def items (texts : List Text) : Text := lines (texts.map fun text => "  - " ++ text)

def complain (failure : Failure) : Text := lines ["Error: " ++ failure.message]

namespace Settings

def request (s : Settings) : ExportRequest :=
  { lineIds := if s.lines.isEmpty then .null else .list s.lines
    window := ⟨s.start.date?, s.finish.date?⟩
    writeReport := s.report }

/-- A date cannot be compared with a bound that is none. -/
def clashes (s : Settings) : Bool :=
  match s.start, s.finish with
  | .date _, .valueless | .valueless, .date _ => true
  | _, _ => false

def isComplete (s : Settings) : Bool :=
  s.output.isSome && s.start ≠ .valueless && s.finish ≠ .valueless

end Settings

/-- Exports as the settings say. A value that was taken away is only missed where it is used:
a bound by the first line that has data, the output once the lines are known. So a job that
misses one is tried first, and whatever the trial wrote is dropped. -/
def exportJob (s : Settings) : Job ExportReport := do
  if s.clashes then throw .unusableValue
  if let .error failure := s.request.checkWindow then throw failure
  let some input := s.input | throw .unusableValue
  let run (request : ExportRequest) := Job.exportLines input (s.output.getD "") request
  if !s.isComplete then
    let before ← get
    let tried := run { s.request with writeReport := false } before
    match tried with
    | .error failure _ => throw failure
    | .ok report _ =>
      if s.output.isNone || report.lines.any fun line => line.state = .ok then
        throw .unusableValue
  run s.request

def runExport (s : Settings) (files : FileTree) : Exit :=
  match exportJob s { files } with
  | .error failure desk => ⟨1, "", complain failure, desk.files⟩
  | .ok report desk =>
    let output :=
      lines ["", "Export finished!", "Output: " ++ s.output.getD ""] ++
      items (report.lines.map fun line =>
        line.lineId.display ++ " " ++ line.name.display ++ ": " ++ line.state.text) ++
      lines ["Stats: " ++ report.total.describe]
    if report.lines.any fun line => line.state = .ok then ⟨0, output, "", desk.files⟩
    else ⟨1, output, lines ["No line has data on the requested period"], desk.files⟩

def validateJob (s : Settings) : Job Verdict := do
  let some input := s.input | throw .unusableValue
  Job.validate input

def runValidate (s : Settings) (files : FileTree) : Exit :=
  match validateJob s { files } with
  | .error failure desk => ⟨1, "", complain failure, desk.files⟩
  | .ok verdict desk =>
    if verdict.isValid then
      let counts : Value := .object (verdict.counts.map fun count => (count.1, .int count.2))
      let warnings : Text :=
        if verdict.doubts.isEmpty then ""
        else
          lines ["Warnings (" ++ toString verdict.doubts.length ++ "):"] ++
            items (verdict.doubts.map Doubt.message)
      ⟨0, lines ["", "Validation successful!", "Stats: " ++ counts.display] ++ warnings, "",
        desk.files⟩
    else
      let heading := "Validation failed with " ++ toString verdict.defects.length ++ " errors:"
      ⟨1, lines ["", heading] ++ items (verdict.defects.map Defect.message), "", desk.files⟩

def runStop (command : Option String) (files : FileTree) : Stop → Exit
  | .help => ⟨0, help command, "", files⟩
  | .version => ⟨0, lines [programName ++ " " ++ versionNumber], "", files⟩
  | .error message =>
    let name := match command with
      | none => programName
      | some command => programName ++ " " ++ command
    ⟨2, "", usage command ++ lines [name ++ ": error: " ++ message], files⟩
  | .within command reason => runStop (some command) files reason

/-- Runs the program on a tree of files. -/
def runProgram (arguments : List Text) (files : FileTree) : Exit :=
  match readSettings arguments with
  | .error stop => runStop none files stop
  | .ok settings =>
    match settings.command with
    | some "export" => runExport settings files
    | some _ => runValidate settings files
    | none => ⟨1, help none, "", files⟩

end LineClosure.CommandLine
