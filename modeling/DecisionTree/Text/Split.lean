namespace DecisionTree.Text

/-- The pieces between the separators, in order. -/
def pieces (separator : Char) : List Char → List (List Char)
  | [] => [[]]
  | c :: cs =>
    if c = separator then [] :: pieces separator cs
    else match pieces separator cs with
      | [] => [[c]]
      | first :: rest => (c :: first) :: rest

/-- What stands before and after the first separator, if there is one. -/
def cutAt? (separator : Char) (cs : List Char) : Option (List Char × List Char) :=
  match cs.dropWhile (· != separator) with
  | [] => none
  | _ :: after => some (cs.takeWhile (· != separator), after)

/-- What stands before and after the first place where the mark occurs, if it does. -/
def cutAtMark? (mark : List Char) : List Char → Option (List Char × List Char)
  | [] => none
  | c :: cs =>
    if mark.isPrefixOf (c :: cs) then some ([], (c :: cs).drop mark.length)
    else (cutAtMark? mark cs).map fun (before, after) => (c :: before, after)

/-- What follows the mark at the beginning of the text, if it stands there. -/
def after? (mark cs : List Char) : Option (List Char) :=
  if mark.isPrefixOf cs then some (cs.drop mark.length) else none

def joinWith (connector : String) : List String → String
  | [] => ""
  | [text] => text
  | text :: rest => text ++ connector ++ joinWith connector rest

end DecisionTree.Text
