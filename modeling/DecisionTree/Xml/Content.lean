import DecisionTree.Xml.Token

/-!
What a document holds: elements with their attributes and, in order, all that stands in them.
Comments and processing instructions are kept as places without content, because they separate
the texts around them.
-/

namespace DecisionTree.Xml

structure Attribute where
  name : Name
  value : String
  deriving DecidableEq

inductive Content where
  | element (name : Name) (attributes : List Attribute) (content : List Content)
  | text (content : String)
  | comment
  | instruction

/-- The value of the attribute of this name that has no qualifier. -/
def valueOf? (key : String) (attributes : List Attribute) : Option String :=
  (attributes.find? (·.name == ⟨"", key⟩)).map (·.value)

/-- The text with which content begins; a comment or an instruction in front of it hides it. -/
def leadingText? : List Content → Option String
  | .text content :: _ => some content
  | _ => none

end DecisionTree.Xml
