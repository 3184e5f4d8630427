import DecisionTree.Yaml.Block
import DecisionTree.Yaml.Scalar
import DecisionTree.Yaml.Token

/-!
From the characters of a document to its tokens. Blocks are told apart by the columns in which they
stand: a token further to the right than the block around it may begin a block of its own, and one
further to the left ends blocks. That something is a key is known only at the colon behind it, so
the place of what may become one is remembered until then. Outside flow collections a key is on one
line.
-/

namespace DecisionTree.Yaml

/-- A level of indentation. A level that is no block stands one column to the right of a key or a
dash and bounds what belongs to it. -/
structure Level where
  /-- the column of the level around this one -/
  around : Int
  isBlock : Bool

/-- A token that becomes a key if a colon follows. -/
structure Candidate where
  /-- the number of the token -/
  number : Nat
  line : Nat
  column : Nat
  index : Nat
  /-- whether it stands where only a key may stand -/
  required : Bool

/-- What has been read of a document, and what decides about the next token. -/
structure Layout where
  place : Place
  /-- the tokens so far, the latest first -/
  tokens : List Token := []
  /-- the number of tokens so far -/
  count : Nat := 0
  /-- the column of the innermost level -/
  indent : Int := -1
  levels : List Level := []
  /-- the candidate at the place reached -/
  candidate : Option Candidate := none
  /-- the candidates around the flow collections that are open, the innermost first -/
  suspended : List (Option Candidate) := []
  keyAllowed : Bool := true
  /-- where a colon may stand right before a value, after a key that shows its own end -/
  adjacent : Option Nat := none

namespace Layout

def inFlow (layout : Layout) : Bool :=
  !layout.suspended.isEmpty

def add (layout : Layout) (token : Token) : Layout :=
  { layout with tokens := token :: layout.tokens, count := layout.count + 1 }

def addUpTo (layout : Layout) (token : Token) (next : Place) : Layout :=
  { layout.add token with place := next }

def insert (layout : Layout) (number : Nat) (token : Token) : Layout :=
  let later := layout.count - number
  { layout with
    tokens := layout.tokens.take later ++ token :: layout.tokens.drop later
    count := layout.count + 1 }

def closeLevels (layout : Layout) (column : Int) : List Level → Layout
  | [] => { layout with levels := [] }
  | level :: outer =>
    if layout.indent ≤ column then { layout with levels := level :: outer }
    else
      let inner := if level.isBlock then layout.add .blockEnd else layout
      closeLevels { inner with indent := level.around } column outer

/-- Closes the levels to the right of a column; in a flow collection none is closed. -/
def closeTo (layout : Layout) (column : Int) : Layout :=
  if layout.inFlow then layout else closeLevels layout column layout.levels

/-- Opens the innermost level again where it is no block. -/
def leaveMargins (layout : Layout) : List Level → Layout
  | [] => { layout with levels := [] }
  | level :: outer =>
    if level.isBlock then { layout with levels := level :: outer }
    else leaveMargins { layout with indent := level.around } outer

/-- The layout without the innermost levels that are no blocks. -/
def withoutMargins (layout : Layout) : Layout :=
  leaveMargins layout layout.levels

def addMargin (layout : Layout) : Layout :=
  if !layout.inFlow && (layout.levels.head?.map (·.isBlock)).getD false then
    { layout with
      levels := ⟨layout.indent, false⟩ :: layout.levels
      indent := layout.indent + 1 }
  else layout

/-- The layout without the innermost level if that is no block and does not reach beyond a
column. -/
def withoutMarginAt (layout : Layout) (column : Nat) : Layout :=
  match layout.levels with
  | level :: outer =>
    if layout.indent ≤ (column : Int) && !level.isBlock then
      { layout with indent := level.around, levels := outer }
    else layout
  | [] => layout

/-- Opens a block in a column to the right of the block around it; its token stands in front of the
token with a number. -/
def openBlock (layout : Layout) (column number : Nat) (token : Token) : Layout :=
  if layout.inFlow then layout
  else
    let layout := layout.withoutMarginAt column
    if layout.indent < (column : Int) then
      { layout.insert number token with
        levels := ⟨layout.indent, true⟩ :: layout.levels
        indent := column }
    else layout

/-- Makes the next token a candidate where a key may stand. -/
def nominate (layout : Layout) : Layout :=
  if layout.keyAllowed then
    let place := layout.place
    let required := !layout.inFlow && layout.indent == (place.column : Int) &&
      (layout.levels.head?.map (·.isBlock)).getD false
    { layout with
      candidate := some ⟨layout.count, place.line, place.column, place.index, required⟩ }
  else layout

/-- Gives the candidate up; one that has to be a key is an error. -/
def withdraw? (layout : Layout) : Option Layout :=
  if (layout.candidate.map (·.required)).getD false then none
  else some { layout with candidate := none }

/-- Gives the candidate up if the place reached is on another line or too far behind it. -/
def settle? (layout : Layout) : Option Layout :=
  match layout.candidate with
  | none => some layout
  | some candidate =>
    let place := layout.place
    if !layout.inFlow && (candidate.line < place.line || candidate.index + 1024 < place.index) then
      layout.withdraw?
    else some layout

/-- The tokens that are certain: those in front of the first candidate. -/
def certain (layout : Layout) : List Token :=
  let numbers := (layout.candidate :: layout.suspended).filterMap (·.map (·.number))
  layout.tokens.reverse.take (numbers.foldl min layout.count)

/-- The column to the left of which a line of a block has no tab. -/
def margin (layout : Layout) : Int :=
  if layout.levels.isEmpty then -1 else layout.indent

/-- Moves on to the next token. A line end makes a key possible. -/
def approach? (layout : Layout) : Option Layout := do
  let next ← layout.place.toToken? layout.margin (layout.place.rest.length + 1)
  let crossed := layout.place.line < next.line
  return { layout with
    place := next
    keyAllowed := layout.keyAllowed || (crossed && !layout.inFlow) }

/-- The layout outside all blocks, where no key has been begun. -/
def outside? (layout : Layout) : Option Layout := do
  let outer ← (layout.closeTo (-1)).withdraw?
  return { outer with keyAllowed := false }

def finish? (layout : Layout) : Option Layout := do
  if layout.suspended.any fun candidate => (candidate.map (·.required)).getD false then none
  let outer ← layout.withdraw?
  let outer ← { outer with suspended := outer.suspended.map fun _ => none }.outside?
  return outer.add .streamEnd

def directive? (layout : Layout) : Option Layout := do
  let outer ← layout.outside?
  let (token, next) ← readDirective? layout.place
  return outer.addUpTo token next

/-- Reads a marker that begins or ends a document. Nothing stands behind one that ends it. -/
def boundary? (layout : Layout) : Option Layout := do
  let outer ← layout.outside?
  let behind := layout.place.skip 3
  if layout.place.hasMarker '-' then return outer.addUpTo .documentStart behind
  else
    let behind ← behind.pastBlanks?
    if atLineEnd behind.rest then return outer.addUpTo .documentEnd behind else none

def openFlow? (layout : Layout) (token : Token) : Option Layout := do
  let inner := layout.nominate.addMargin
  let next ← inner.place.step.pastBlanks?
  return { inner.addUpTo token next with
    candidate := none
    suspended := inner.candidate :: inner.suspended
    keyAllowed := true }

/-- Reads a mark that closes a flow collection. A colon may stand right behind it. -/
def closeFlow? (layout : Layout) (token : Token) : Option Layout := do
  let inner ← layout.withdraw?
  let next ← inner.place.step.pastBlanks?
  match inner.suspended with
  | [] => none
  | candidate :: outer =>
    return { inner.addUpTo token next with
      candidate
      suspended := outer
      keyAllowed := false
      adjacent := if outer.isEmpty then inner.adjacent else some next.index }

def comma? (layout : Layout) : Option Layout := do
  let settled ← layout.withdraw?
  let next ← settled.place.step.pastBlanks?
  return { settled.addUpTo .comma next with keyAllowed := true }

/-- Whether a dash that stands alone comes after a tab here. -/
def tabbedDash (before : List Char) (behind : Place) : Bool :=
  before.contains '\t' && behind.rest.head? == some '-' && standsAlone behind.rest.tail

/-- Reads a dash. What begins on another line or is a flow collection belongs to a level of its
own. -/
def dash? (layout : Layout) : Option Layout := do
  if layout.inFlow || !layout.keyAllowed then none
  let opened := layout.openBlock layout.place.column layout.count .blockSequence
  let next ← layout.place.step.pastBlanks?
  if tabbedDash (layout.place.step.rest.takeWhile isBlank) next then none
  let separate := (next.rest.head?.map fun c => c == '\n' || isFlowMark c).getD false
  let inner ← (if separate then opened.addMargin else opened).withdraw?
  return { inner.addUpTo .dash next with keyAllowed := true }

/-- Moves on behind a question mark to what it makes a key. A space or a line end stands behind the
mark, more of them and comments may follow, and no tab. -/
def pastQuestion? (layout : Layout) : Option Layout := do
  let next := layout.place.pastSpaces (layout.place.rest.length + 1)
  if next.index = layout.place.index || next.rest.head? = some '\t' then none
  return { layout with
    place := next
    keyAllowed := layout.keyAllowed || (layout.place.line < next.line && !layout.inFlow) }

/-- Reads a question mark, which makes what follows a key. -/
def question? (layout : Layout) : Option Layout := do
  if !layout.inFlow && !layout.keyAllowed then none
  let opened := layout.openBlock layout.place.column layout.count .blockMapping
  let inner ← opened.withdraw?
  let next := { inner with place := inner.place.step, keyAllowed := !inner.inFlow }
  let behind ← next.pastQuestion?
  return behind.add .key

/-- The place behind a colon. A tab alone does not separate it from a word or a dash. -/
def pastColon? (place : Place) : Option Place :=
  let behind := place.step
  if behind.rest.head? = some '\t' then do
    let next ← behind.pastBlanks?
    let spaced := (behind.rest.takeWhile isBlank).contains ' '
    if !spaced && (next.rest.head?.map isWordCharacter).getD false then none else some next
  else some behind

/-- Reads a colon. It makes a key of the candidate, or else belongs to a key that was marked as
one. -/
def colon? (layout : Layout) : Option Layout := do
  let next ← pastColon? layout.place
  let behind := { layout with place := next }
  match layout.candidate with
  | some candidate =>
    let keyed := behind.insert candidate.number .key
    let opened := (keyed.openBlock candidate.column candidate.number .blockMapping).addMargin
    return { opened.add .value with candidate := none, keyAllowed := false }
  | none =>
    if layout.inFlow then return { behind.add .value with keyAllowed := false }
    else if !layout.keyAllowed then none
    else
      let opened := behind.openBlock layout.place.column layout.count .blockMapping
      return { opened.addMargin.add .value with keyAllowed := true }

def property? (layout : Layout) (token : Token) (next : Place) : Layout :=
  { layout.nominate.addUpTo token next with keyAllowed := false }

/-- Reads a quoted scalar. A colon may stand right behind it. -/
def quoted? (layout : Layout) : Option Layout := do
  let (content, behind) ← quotedScalar? layout.inFlow layout.indent layout.place
  let passed := { layout.nominate with place := behind, keyAllowed := false }
  let next ← passed.approach?
  return { next.add (.scalar .quoted (String.ofList content)) with
    adjacent := some next.place.index }

def plain? (layout : Layout) : Option Layout := do
  let inner := layout.nominate.withoutMargins
  let (content, next) ← plainScalar? inner.inFlow inner.indent inner.place
  if content.isEmpty then none
  return { inner.addUpTo (.scalar .plain (String.ofList content)) next with
    keyAllowed := next.fresh }

def block? (layout : Layout) : Option Layout := do
  let inner := layout.nominate.withoutMargins
  let (content, next) ← blockScalar? inner.indent inner.place
  return { inner.addUpTo (.scalar .block (String.ofList content)) next with keyAllowed := true }

/-- Reads a token that begins with a character, before others. -/
def readAt? (layout : Layout) (c : Char) (cs : List Char) : Option Layout :=
  let alone := standsAlone cs
  let beforeMark := (cs.head?.map isFlowMark).getD false
  match c with
  | '[' => layout.openFlow? .openSequence
  | '\x7b' => layout.openFlow? .openMapping
  | ']' => layout.closeFlow? .closeSequence
  | '\x7d' => layout.closeFlow? .closeMapping
  | ',' => layout.comma?
  | '*' => (readName? layout.place).map fun (name, next) => layout.property? (.aliasTo name) next
  | '&' => (readName? layout.place).map fun (name, next) => layout.property? (.anchor name) next
  | '!' => (readTag? layout.inFlow layout.place).map fun (token, next) =>
    layout.property? token next
  | '\'' => layout.quoted?
  | '"' => layout.quoted?
  | '%' => none
  | '@' => none
  | '\x60' => none
  | '-' => if alone then layout.dash? else layout.plain?
  | '?' => if alone then layout.question? else layout.plain?
  | ':' =>
    if alone then layout.colon?
    else if layout.inFlow && (beforeMark || layout.adjacent == some layout.place.index) then
      let opens := cs.head? = some '[' || cs.head? = some '\x7b'
      if layout.adjacent ≠ some layout.place.index && opens then none else layout.colon?
    else layout.plain?
  | '|' => if layout.inFlow then layout.plain? else layout.block?
  | '>' => if layout.inFlow then layout.plain? else layout.block?
  | _ => layout.plain?

/-- Reads the next token. What stands to the left of the innermost level is an error, except for
the punctuation of a flow collection other than an opening mark. -/
def next? (layout : Layout) : Option Layout := do
  let reached ← layout.approach?
  let settled ← reached.settle?
  let current := settled.closeTo settled.place.column
  match current.place.rest with
  | [] => current.finish?
  | c :: cs =>
    let atMargin := current.place.column = 0
    if atMargin && c == '%' then current.directive?
    else if atMargin && current.place.hasBoundary then current.boundary?
    else if (current.place.column : Int) < current.indent &&
        !(current.inFlow && (c == ']' || c == '\x7d' || c == ',')) then none
    else current.readAt? c cs

def ended (layout : Layout) : Bool :=
  layout.tokens.head? == some .streamEnd

/-- The tokens of what is left of a document; where it cannot be read on, those that are certain by
then. The fuel bounds the tokens that are written. -/
def scan : Nat → Layout → List Token
  | 0, layout => layout.certain
  | fuel + 1, layout =>
    match layout.next? with
    | none => layout.certain
    | some next =>
      if next.ended then next.tokens.reverse
      else match next.settle? with
        | none => next.certain
        | some settled => scan fuel settled

end Layout

/-- Line ends of all kinds as line feeds. -/
def uniformLines : List Char → List Char
  | [] => []
  | '\r' :: '\n' :: cs => '\n' :: uniformLines cs
  | '\r' :: cs => '\n' :: uniformLines cs
  | c :: cs => c :: uniformLines cs

/-- The characters of a text behind its byte order mark, if it has one. -/
def withoutMark : List Char → List Char
  | '\uFEFF' :: cs => cs
  | cs => cs

/-- The tokens of a text. They end with `streamEnd` unless the text cannot be read to its end. A
null character ends the text. -/
def tokens (text : String) : List Token :=
  let cs := (uniformLines (withoutMark text.toList)).takeWhile (· != '\x00')
  Layout.scan (cs.length + 2) { place := { rest := cs } }

end DecisionTree.Yaml
