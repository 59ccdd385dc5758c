import LineClosure.Closure.Tally
import LineClosure.Registry.Problem

/-! What an export reports: an entry for each requested line, and the totals. -/

namespace LineClosure

inductive LineState where
  | ok
  | error
deriving DecidableEq, Inhabited

def LineState.all : List LineState := [.ok, .error]

def LineState.text : LineState → String
  | ok => "OK"
  | error => "ERROR"

inductive LineErrorCode where
  | noDataOnPeriod
deriving DecidableEq, Inhabited

def LineErrorCode.all : List LineErrorCode := [.noDataOnPeriod]

def LineErrorCode.text : LineErrorCode → String
  | noDataOnPeriod => "NO_DATA_ON_PERIOD"

structure LineError where
  code : LineErrorCode
  description : Value
deriving DecidableEq

/-- What a report says of a line is written as it was given. -/
structure LineReport where
  lineId : Value
  name : Value
  state : LineState := .ok
  tally : Tally := {}
  errors : List LineError := []
deriving DecidableEq

/-- Files are named in the order in which they were first written. -/
structure ExportReport where
  lines : List LineReport := []
  total : Tally := {}
  files : List Text := []
deriving DecidableEq

namespace ExportReport

def addFile (report : ExportReport) (name : Text) : ExportReport :=
  if report.files.contains name then report else { report with files := report.files ++ [name] }

end ExportReport
end LineClosure
