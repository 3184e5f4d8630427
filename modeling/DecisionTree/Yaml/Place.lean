/-!
Places in a YAML document and the ways from one to another. A place knows its line and its column,
because the column in which a line begins tells which block it belongs to. Line ends are line
feeds. Blanks are spaces and tabs, but a tab never counts as indentation.
-/

namespace DecisionTree.Yaml

/-- A space or a tab. -/
def isBlank (c : Char) : Bool :=
  c == ' ' || c == '\t'

/-- The punctuation of flow collections. -/
def isFlowMark (c : Char) : Bool :=
  c == ',' || c == '[' || c == ']' || c == '\x7b' || c == '\x7d'

/-- Letters, digits, the hyphen and the underscore. -/
def isWordCharacter (c : Char) : Bool :=
  c.isAlphanum || c == '-' || c == '_'

def atLineEnd (cs : List Char) : Bool :=
  (cs.head?.map (· == '\n')).getD true

/-- Whether a mark before these characters stands alone: something blank or the end follows. -/
def standsAlone (cs : List Char) : Bool :=
  (cs.head?.map fun c => isBlank c || c == '\n').getD true

structure Place where
  rest : List Char
  line : Nat := 0
  column : Nat := 0
  /-- how many characters stand before it -/
  index : Nat := 0
  /-- whether nothing but blanks stands before it on its line -/
  fresh : Bool := true

namespace Place

def step (place : Place) : Place :=
  match place.rest with
  | [] => place
  | c :: cs =>
    if c == '\n' then ⟨cs, place.line + 1, 0, place.index + 1, true⟩
    else ⟨cs, place.line, place.column + 1, place.index + 1, place.fresh && isBlank c⟩

def skip (place : Place) : Nat → Place
  | 0 => place
  | n + 1 => place.step.skip n

def skipWhile (place : Place) (has : Char → Bool) : Place :=
  place.skip (place.rest.takeWhile has).length

def lineEnd (place : Place) : Place :=
  place.skipWhile (· != '\n')

/-- Whether a mark stands here three times and alone. -/
def hasMarker (place : Place) (mark : Char) : Bool :=
  [mark, mark, mark].isPrefixOf place.rest && standsAlone (place.rest.drop 3)

/-- Whether a marker stands here that begins or ends a document. -/
def hasBoundary (place : Place) : Bool :=
  place.hasMarker '-' || place.hasMarker '.'

/-- The place behind the blanks here, and the comment behind them if there is one. A comment with
no blank before it is an error. -/
def pastBlanks? (place : Place) : Option Place :=
  let behind := place.skipWhile isBlank
  if behind.rest.head? = some '#' then
    if behind.column = place.column then none else some behind.lineEnd
  else some behind

/-- The place behind spaces, comments and line ends. The fuel bounds the characters. -/
def pastSpaces : Nat → Place → Place
  | 0, place => place
  | fuel + 1, place =>
    match place.rest with
    | ' ' :: _ => pastSpaces fuel place.step
    | '\n' :: _ => pastSpaces fuel place.step
    | '#' :: _ => pastSpaces fuel place.lineEnd
    | _ => place

/-- The place of the next token, behind blanks, comments and line ends. To the left of the margin
a line with a token in it has no tab. The fuel bounds the characters. -/
def toToken? (margin : Int) : Nat → Place → Option Place
  | 0, _ => none
  | fuel + 1, place =>
    match place.rest with
    | [] => some place
    | c :: _ =>
      if c == '\t' && place.fresh && (place.column : Int) < margin then do
        let behind ← place.pastBlanks?
        if atLineEnd behind.rest then toToken? margin fuel behind else none
      else if isBlank c || c == '\n' then toToken? margin fuel place.step
      else if c == '#' then toToken? margin fuel place.lineEnd
      else some place

end Place
end DecisionTree.Yaml
