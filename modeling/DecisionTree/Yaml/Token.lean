import DecisionTree.Text.Digits
import DecisionTree.Yaml.Basic
import DecisionTree.Yaml.Place

namespace DecisionTree.Yaml

inductive Token where
  /-- the version of the language -/
  | version
  /-- what a handle at the beginning of tags stands for -/
  | handle (handle expansion : String)
  /-- a directive that says nothing to this library -/
  | otherDirective
  | documentStart
  | documentEnd
  | blockSequence
  | blockMapping
  | blockEnd
  | openSequence
  | closeSequence
  | openMapping
  | closeMapping
  | dash
  | comma
  | key
  | value
  | aliasTo (name : String)
  | anchor (name : String)
  | tag (handle suffix : String)
  | scalar (style : Style) (content : String)
  | streamEnd
  deriving DecidableEq, Repr

/-- The line end that a directive runs up to, and the place behind it. -/
def pastLine? (place : Place) : Option Place := do
  let behind ← place.pastBlanks?
  if atLineEnd behind.rest then return behind.step else none

/-- The place behind a number of a version, of at most nine digits. -/
def pastNumber? (place : Place) : Option Place :=
  let length := (place.rest.takeWhile Char.isDigit).length
  if 0 < length && length ≤ 9 then some (place.skip length) else none

/-- The place behind a version: two numbers and a point between them. -/
def pastVersion? (place : Place) : Option Place := do
  let point ← pastNumber? place
  if point.rest.head? = some '.' then pastNumber? point.step else none

def isUriCharacter (c : Char) : Bool :=
  (c.isAlphanum || c == '-') || "#;/?:@&=+$,_.!~*'()[]%".toList.contains c

/-- Characters of the end of a tag: there is no other mark and no flow punctuation in it. -/
def isTagCharacter (c : Char) : Bool :=
  isUriCharacter c && !isFlowMark c && c != '!'

/-- The characters of a tag with a property, and the place behind them. A percent sign stands
before the code of a character in two digits. The fuel bounds the characters. -/
def tagText? (has : Char → Bool) : Nat → Place → Option (List Char × Place)
  | 0, _ => none
  | fuel + 1, place =>
    match place.rest with
    | c :: cs =>
      if !has c then some ([], place)
      else if c == '%' then do
        if cs.length < 2 then none
        let code ← Text.valueIn? 16 (cs.take 2)
        if 0x80 ≤ code then none
        let (more, last) ← tagText? has fuel (place.skip 3)
        return (Char.ofNat code :: more, last)
      else do
        let (more, last) ← tagText? has fuel place.step
        return (c :: more, last)
    | [] => some ([], place)

/-- A handle at a place with an exclamation mark: the mark, a word, and a second mark if there is
one. -/
def readHandle? (place : Place) : Option (List Char × Place) :=
  match place.rest with
  | '!' :: cs =>
    let word := cs.takeWhile isWordCharacter
    let behind := place.skip (word.length + 1)
    if behind.rest.head? = some '!' then some ('!' :: word ++ ['!'], behind.step)
    else some ('!' :: word, behind)
  | _ => none

/-- Whether a handle begins and ends with a mark of its own. -/
def isNamedHandle (handle : List Char) : Bool :=
  2 ≤ handle.length && handle.getLast? == some '!'

/-- The handle that a directive declares, what it stands for, and the place behind that. -/
def readDeclaration? (place : Place) : Option (Token × Place) := do
  let (handle, behind) ← readHandle? (place.skipWhile isBlank)
  if handle ≠ ['!'] && !isNamedHandle handle then none
  let start := behind.skipWhile isBlank
  let c ← start.rest.head?
  if c ≠ '!' && !isTagCharacter c then none
  let (expansion, last) ← tagText? isUriCharacter (start.rest.length + 1) start
  if standsAlone last.rest then
    return (.handle (String.ofList handle) (String.ofList expansion), last)
  else none

/-- A directive, and the place of the line below it. -/
def readDirective? (place : Place) : Option (Token × Place) := do
  let name := place.step.rest.takeWhile isWordCharacter
  let behind := place.step.skip name.length
  if name.isEmpty || !standsAlone behind.rest then none
  let (token, last) ←
    match String.ofList name with
    | "YAML" => do
      let last ← pastVersion? (behind.skipWhile isBlank)
      pure (Token.version, last)
    | "TAG" => readDeclaration? behind
    | _ => some (Token.otherDirective, behind.lineEnd)
  let next ← pastLine? last
  return (token, next)

def isAnchorCharacter (c : Char) : Bool :=
  !isBlank c && c != '\n' && c != '\uFEFF' && !isFlowMark c

/-- The name behind the mark of an anchor or an alias, and the place behind it. -/
def readName? (place : Place) : Option (String × Place) :=
  let name := place.step.rest.takeWhile isAnchorCharacter
  if name.isEmpty then none else some (String.ofList name, place.step.skip name.length)

/-- A tag in angle brackets, which stands for itself, and the place behind it. -/
def readVerbatim? (place : Place) : Option (Token × Place) := do
  let (uri, last) ← tagText? isUriCharacter (place.rest.length + 1) (place.skip 2)
  if last.rest.head? = some '>' then return (.tag "" (String.ofList uri), last.step) else none

/-- A tag with a handle, and the place behind it. A bare mark is a tag of its own. -/
def readShorthand? (place : Place) : Option (Token × Place) := do
  let (handle, behind) ← readHandle? place
  let (text, last) ← tagText? isTagCharacter (place.rest.length + 1) behind
  if isNamedHandle handle then
    if handle ≠ ['!', '!'] && text.isEmpty then none
    return (.tag (String.ofList handle) (String.ofList text), last)
  else
    let suffix := handle.tail ++ text
    if suffix.isEmpty then return (.tag "" "!", last)
    else return (.tag "!" (String.ofList suffix), last)

/-- A tag, and the place behind it, where something blank or flow punctuation stands. -/
def readTag? (inFlow : Bool) (place : Place) : Option (Token × Place) := do
  let (token, last) ←
    if place.rest.tail.head? = some '<' then readVerbatim? place else readShorthand? place
  let ends := standsAlone last.rest || (inFlow && (last.rest.head?.map isFlowMark).getD false)
  if ends then return (token, last) else none

end DecisionTree.Yaml
