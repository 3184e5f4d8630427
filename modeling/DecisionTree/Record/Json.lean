import DecisionTree.Json.Basic
import DecisionTree.Record

/-!
Records as JSON objects. Reading takes numbers, texts and booleans; a `null` member is a missing
field, of repeated names the last counts, and the first container in the order of the names is
the error. Writing gives each field its number or text.
-/

namespace DecisionTree

def Value.toJson : Value → Json
  | .number x => Json.ofFloat x
  | .text content => .string content

namespace Record

/-- The field value that a member stands for: none for `null`, and no answer for a container. -/
def memberValue? : Json → Option (Option Value)
  | .null => some none
  | .number x => some (some (.number x.val))
  | .string content => some (some (.text content))
  | .bool true => some (some (.text "true"))
  | .bool false => some (some (.text "false"))
  | .array _ => none
  | .object _ => none

def addMembers (record : Record) : List (String × Json) → Except RecordError Record
  | [] => .ok record
  | (field, member) :: rest =>
    match memberValue? member with
    | some (some value) => addMembers (record.insert field value) rest
    | some none => addMembers record rest
    | none => .error (.unsupportedValue field)

def ofJson : Json → Except RecordError Record
  | .object members => addMembers Table.empty (Table.ofList members).entries
  | _ => .error .notAnObject

/-- The fields of a record as a JSON object. -/
def toJson (record : Record) : Json :=
  .object (record.entries.map fun (field, value) => (field, value.toJson))

end Record
end DecisionTree
