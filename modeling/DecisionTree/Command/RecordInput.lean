import DecisionTree.Files.Host
import DecisionTree.Json.Reader
import DecisionTree.Record.Json

namespace DecisionTree.Command

open Files (FileError)

/-- A record file by its path, with its content as far as it can be read. -/
structure RecordFile where
  path : String
  content : Except FileError String

inductive RecordFailure where
  | unreadable (path : String) (error : FileError)
  | notJson (path : String)
  | notRecord (path : String) (error : RecordError)
  | assignment (error : RecordError)
  deriving DecidableEq, Repr

/-- The wording of a failure, with its causes behind it. -/
def RecordFailure.message : RecordFailure → String
  | .unreadable path error => s!"Failed to read record file at {path}: {error.message}"
  | .notJson path => s!"Invalid JSON in {path}: this is no JSON text"
  | .notRecord path error => s!"Invalid record in {path}: {error.message}"
  | .assignment error => error.message

def RecordFile.record (file : RecordFile) : Except RecordFailure Record :=
  match file.content with
  | .error error => .error (.unreadable file.path error)
  | .ok content =>
    match Json.read? content with
    | none => .error (.notJson file.path)
    | some json => (Record.ofJson json).mapError (.notRecord file.path)

/-- The record of a file, if there is one, with assignments on top. -/
def buildRecord (file : Option RecordFile) (assignments : List String) :
    Except RecordFailure Record := do
  let base ← match file with
    | some file => file.record
    | none => .ok Table.empty
  (base.assignAll (assignments.map String.toList)).mapError .assignment

end DecisionTree.Command
