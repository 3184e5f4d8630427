import DecisionTree.Text.Base64

/-!
YAML documents as trees. A scalar keeps its text, how it is written and its tag, because only a
plain scalar can be null, and only some tags leave a scalar the text that it is.
-/

namespace DecisionTree

namespace Yaml

inductive Style where
  | plain
  | quoted
  /-- as an indented block of lines -/
  | block
  deriving DecidableEq, Repr

end Yaml

inductive Yaml where
  /-- a scalar, with its tag if it has one -/
  | scalar (style : Yaml.Style) (tag : Option String) (content : String)
  | sequence (items : List Yaml)
  | mapping (entries : List (Yaml × Yaml))

namespace Yaml

def coreTag : String := "tag:yaml.org,2002:"

def null : Yaml := .scalar .plain none "~"

/-- Whether the text of a plain scalar is one for null: nothing, a tilde, or the word for it in any
letter case. -/
def isNullText (content : String) : Bool :=
  content.isEmpty || content == "~" || content.toList.map Char.toLower == ['n', 'u', 'l', 'l']

/-- Whether a node is null: by its tag, or as a plain scalar with a text for it. -/
def isNull : Yaml → Bool
  | .scalar style tag content =>
    tag == some (coreTag ++ "null") || (style == .plain && isNullText content)
  | _ => false

/-- Whether a node is as good as left out: it is null, or a block scalar without content. -/
def isAbsent : Yaml → Bool
  | .scalar .block _ content => content.isEmpty
  | node => node.isNull

/-- The names of core types other than text that scalars have. -/
def otherTypes : List String :=
  ["null", "bool", "int", "float", "binary", "timestamp", "seq", "map", "set", "omap"]

def allowsText : Option String → Bool
  | none => true
  | some tag => !(otherTypes.map (coreTag ++ ·)).contains tag

/-- The text of a scalar that is not null. Numbers and truth values are texts as they stand; a
text for null is one only with the tag of texts, and one of bytes is written in base64. -/
def text? : Yaml → Option String
  | .scalar style tag content =>
    if tag = some (coreTag ++ "str") then some content
    else if isNull (.scalar style tag content) then none
    else if tag = some (coreTag ++ "binary") then Text.ofBase64? content
    else if allowsText tag then some content
    else none
  | _ => none

/-- The name in a tag of a document's own; tags of core types and the bare mark have none. -/
def typeName? (tag : String) : Option String :=
  let core := (otherTypes ++ ["str"]).map (coreTag ++ ·)
  if core.contains tag || tag = "!" then none
  else
    let name := tag.toList.dropWhile (· == '!')
    let name := if coreTag.toList.isPrefixOf name then name.drop coreTag.length else name
    if name.isEmpty || name.contains ':' || name.contains '!' then none
    else some (String.ofList name)

end Yaml
end DecisionTree
