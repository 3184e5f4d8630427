import DecisionTree.Text.Blank

/-!
The values of an array element: words separated by blanks. A word that begins with a double quote
ends at the next one, may hold blanks, and writes a quote inside as `\"`. What follows the closing
quote begins the next word, with or without a blank between them; a missing closing quote is
supplied at the end of the text.
-/

namespace DecisionTree.Pmml

/-- Words of which the first has one more character in front. -/
def extendFirst (c : Char) : List Char × List (List Char) → List Char × List (List Char)
  | (word, later) => (c :: word, later)

mutual

def words : List Char → List (List Char)
  | [] => []
  | c :: cs =>
    if Text.isBlank c then words cs
    else if c = '"' then
      let (word, later) := quotedWord cs
      word :: later
    else
      let (word, later) := plainWord cs
      (c :: word) :: later

/-- The rest of a word without quotes, and the words after it. -/
def plainWord : List Char → List Char × List (List Char)
  | [] => ([], [])
  | c :: cs => if Text.isBlank c then ([], words cs) else extendFirst c (plainWord cs)

/-- The rest of a word in quotes, and the words after it. -/
def quotedWord : List Char → List Char × List (List Char)
  | [] => ([], [])
  | '\\' :: '"' :: cs => extendFirst '"' (quotedWord cs)
  | c :: cs => if c = '"' then ([], words cs) else extendFirst c (quotedWord cs)

end

def arrayValues (content : String) : List String :=
  (words content.toList).map String.ofList

end DecisionTree.Pmml
