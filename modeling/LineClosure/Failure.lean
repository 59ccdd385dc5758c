import LineClosure.Calendar.DateText
import LineClosure.Document.Reader
import LineClosure.Document.Utf8
import LineClosure.Registry.Problem
import LineClosure.Storage.FileTree

/-! Why a run ends without a result. -/

namespace LineClosure

/-- The halves that have no bytes are told by number if there is one, and by their places if
there are several in a row. -/
def noBytesMessage (path : Text) : String :=
  let before := path.points.takeWhile fun point => !isHalf point || FileName.isLooseByte point
  let halves := (path.points.drop before.length).takeWhile isHalf
  let first := before.length
  let found := match halves with
    | [half] =>
      "character '\\u" ++ hexDigits 4 half ++ "' in position " ++ toString first
    | _ =>
      "characters in position " ++ toString first ++ "-" ++ toString (first + halves.length - 1)
  "'utf-8' codec can't encode " ++ found ++ ": surrogates not allowed"

def StorageError.message (e : StorageError) : String :=
  match e.fault with
  | .missing => "[Errno 2] No such file or directory: " ++ quoted e.path
  | .occupied => "[Errno 17] File exists: " ++ quoted e.path
  | .noFolder => "[Errno 20] Not a directory: " ++ quoted e.path
  | .isFolder => "[Errno 21] Is a directory: " ++ quoted e.path
  | .tooLong => "[Errno 36] File name too long: " ++ quoted e.path
  | .embeddedNul => "embedded null byte"
  | .noBytes => noBytesMessage e.path

inductive Failure where
  | fileNotFound (path : Text)
  | notUtf8 (fault : Utf8.Fault)
  | malformed (m : Document.Malformed)
  | notAnObject (path : Text)
  | missingField (name : String)
  | unusableValue
  | invalidDate (v : Value)
  | invalidChoice (choice : String) (v : Value)
  | refused (problem : Problem)
  | reversedWindow (start finish : Date)
  | invalidNetwork (errors : Nat)
  | unknownLines (ids : List Text)
  | closureWithoutLine
  | storage (e : StorageError)

def Failure.message : Failure → Text
  | fileNotFound path => "Network file not found: " ++ path
  | notUtf8 fault => fault.message
  | malformed m => m.message
  | notAnObject path => "Network document must be a JSON object: " ++ FileTree.pathText path
  | missingField name => quoted name
  | unusableValue => "A value of this kind cannot be used here"
  | invalidDate v => "Invalid date format: " ++ v.display
  | invalidChoice choice v => "Invalid " ++ choice ++ ": " ++ v.display
  | refused problem => problem.message
  | reversedWindow start finish =>
    "start_date " ++ start.text ++ " is after end_date " ++ finish.text
  | invalidNetwork errors => "Network validation failed with " ++ toString errors ++ " errors"
  | unknownLines ids => "Unknown lines requested: " ++ Text.join ", " ids
  | closureWithoutLine => "Cannot write a closure without a line"
  | storage e => e.message

end LineClosure
