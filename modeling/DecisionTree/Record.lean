import DecisionTree.Table
import DecisionTree.Text.Split
import DecisionTree.Value

/-!
A record is the case to be scored: values under field names. A field without a value is missing,
which is different from an empty text. Records are typed as assignments `field=value`, later ones
overriding earlier ones.
-/

namespace DecisionTree

/-- Field values by name. -/
abbrev Record := Table Value

inductive RecordError where
  /-- no equals sign, or nothing in front of the first one -/
  | malformedAssignment (assignment : String)
  | notAnObject
  /-- a member that is an array or an object -/
  | unsupportedValue (field : String)
  deriving DecidableEq, Repr

def RecordError.message : RecordError → String
  | .malformedAssignment assignment => s!"expected 'field=value', got '{assignment}'"
  | .notAnObject => "record must be a JSON object"
  | .unsupportedValue field => s!"field '{field}' must be a string, number or boolean"

namespace Record

/-- An assignment cut at its first equals sign: the field name without outer blanks and the
literal. The name may not be blank. -/
def splitAssignment? (assignment : List Char) : Option (String × String) :=
  match Text.cutAt? '=' assignment with
  | none => none
  | some (name, literal) =>
    let field := Text.trimmed name
    if field.isEmpty then none else some (String.ofList field, String.ofList literal)

/-- Carries out one assignment in place. A malformed one leaves the record as it is. -/
def insertAssignment (record : Record) (assignment : List Char) : Record × Option RecordError :=
  match splitAssignment? assignment with
  | some (field, literal) => (record.insert field (Value.ofLiteral literal), none)
  | none => (record, some (.malformedAssignment (String.ofList (Text.trimmed assignment))))

/-- Carries out assignments in place, up to the first malformed one. -/
def assignInPlace (record : Record) : List (List Char) → Record × Option RecordError
  | [] => (record, none)
  | assignment :: rest =>
    match record.insertAssignment assignment with
    | (next, none) => assignInPlace next rest
    | (left, some error) => (left, some error)

/-- What was made in place, given up if there is an error. -/
def orError : Record × Option RecordError → Except RecordError Record
  | (record, none) => .ok record
  | (_, some error) => .error error

def assign (record : Record) (assignment : List Char) : Except RecordError Record :=
  orError (record.insertAssignment assignment)

/-- The record after assignments in order; the first malformed one is the error. -/
def assignAll (record : Record) (assignments : List (List Char)) : Except RecordError Record :=
  orError (record.assignInPlace assignments)

/-- The assignments of a text: its pieces between commas that are not blank. -/
def assignmentsOf (text : String) : List (List Char) :=
  (Text.pieces ',' text.toList).filter fun piece => !(Text.trimmed piece).isEmpty

/-- A record from a text of assignments separated by commas. -/
def ofAssignments (text : String) : Except RecordError Record :=
  assignAll Table.empty (assignmentsOf text)

end Record
end DecisionTree
