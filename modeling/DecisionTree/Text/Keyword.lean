import DecisionTree.Text.Blank

/-!
Vocabularies: finite types whose members have one canonical spelling each. A keyword is read by its
exact spelling, or loosely from a table in which the letters are lower case, so that blanks around
it and ASCII letter case do not matter.
-/

namespace DecisionTree

/-- A finite type whose members are written as keywords. -/
class Vocabulary (α : Type) where
  /-- every member, in the order in which they are tried -/
  members : List α
  /-- canonical spelling -/
  spelling : α → String

/-- A vocabulary with a table of the keywords that are read loosely. -/
class Lexicon (α : Type) extends Vocabulary α where
  entries : List (String × α)

namespace Vocabulary

/-- What is compared when a keyword is read loosely: no outer blanks, ASCII letters lower case. -/
def folded (text : String) : List Char :=
  (Text.trimmed text.toList).map Char.toLower

def named? {α : Type} [Vocabulary α] (text : String) : Option α :=
  members.find? fun member => spelling member == text

end Vocabulary

/-- The member at the first entry of the table for the text without outer blanks, in lower case. -/
def Lexicon.read? {α : Type} [Lexicon α] (text : String) : Option α :=
  (entries.find? fun entry => entry.1.toList == Vocabulary.folded text).map Prod.snd

end DecisionTree
