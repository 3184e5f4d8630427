import DecisionTree.Text.Digits
import DecisionTree.Yaml.Place

/-!
Plain and quoted scalars. A plain one ends at a colon that something blank follows or at a comment;
in a flow collection also at its punctuation. Both may go on over line ends: a single one is read as
a space, and of several in a row the first is dropped. In a block, the lines of a scalar stand to
the right of the block.
-/

namespace DecisionTree.Yaml

/-- What a number of line ends in a row is read as. -/
def folded (lineEnds : Nat) : List Char :=
  if lineEnds = 1 then [' '] else List.replicate (lineEnds - 1) '\n'

/-- What stands between two words of a scalar: blanks, or line ends and no blanks. -/
structure Gap where
  blanks : List Char
  lineEnds : Nat
  /-- the place of the next word -/
  next : Place

def Gap.content (gap : Gap) : List Char :=
  if gap.lineEnds = 0 then gap.blanks else folded gap.lineEnds

/-- The gap at a place in a quoted scalar. Once the line is `broken`, blanks count for nothing, but
no tab stands to the left of the margin. The fuel bounds the characters. -/
def quotedGap? (margin : Int) (broken : Bool) : Nat → Gap → Option Gap
  | 0, _ => none
  | fuel + 1, gap =>
    match gap.next.rest with
    | '\n' :: _ => quotedGap? margin true fuel ⟨[], gap.lineEnds + 1, gap.next.step⟩
    | c :: _ =>
      if !isBlank c then some gap
      else if !broken then
        quotedGap? margin false fuel ⟨gap.blanks ++ [c], gap.lineEnds, gap.next.step⟩
      else if c == '\t' && (gap.next.column : Int) < margin then none
      else quotedGap? margin true fuel { gap with next := gap.next.step }
    | [] => some gap

def escapeByCode? (digits : Nat) (cs : List Char) : Option (Char × Nat) := do
  if cs.length < digits then none
  let code ← Text.valueIn? 16 (cs.take digits)
  if code.isValidChar then return (Char.ofNat code, digits + 1) else none

def escapeByLetter? : Char → Option Char
  | '0' => some '\x00'
  | 'a' => some '\x07'
  | 'b' => some '\x08'
  | 't' => some '\t'
  | '\t' => some '\t'
  | 'n' => some '\n'
  | 'v' => some '\x0b'
  | 'f' => some '\x0c'
  | 'r' => some '\r'
  | 'e' => some '\x1b'
  | ' ' => some ' '
  | '"' => some '"'
  | '/' => some '/'
  | '\\' => some '\\'
  | 'N' => some '\u0085'
  | '_' => some '\u00a0'
  | 'L' => some '\u2028'
  | 'P' => some '\u2029'
  | _ => none

/-- The character of an escape after its backslash, and the number of characters it takes there. -/
def readEscape? : List Char → Option (Char × Nat)
  | 'x' :: cs => escapeByCode? 2 cs
  | 'u' :: cs => escapeByCode? 4 cs
  | 'U' :: cs => escapeByCode? 8 cs
  | c :: _ => (escapeByLetter? c).map (·, 1)
  | [] => none

/-- Whether a line of a quoted scalar may begin here: in a flow collection anywhere, in a block to
the right of the margin; the closing quote may stand anywhere. -/
def mayContinue (inFlow : Bool) (margin : Int) (quote : Char) (place : Place) : Bool :=
  inFlow || margin < (place.column : Int) || place.rest.head? == some quote

/-- The content of a scalar after its opening quote, and the place behind its closing one. In double
quotes a backslash opens an escape, or hides a line end together with the blanks behind it; in
single ones a quote is written twice. No document begins or ends within. The fuel bounds the
characters. -/
def readQuoted? (inFlow : Bool) (margin : Int) (quote : Char) :
    Nat → Place → Option (List Char × Place)
  | 0, _ => none
  | fuel + 1, place =>
    if place.column = 0 && place.hasBoundary then none
    else match place.rest with
    | [] => none
    | c :: cs =>
      if c == quote then
        if quote == '\'' && cs.head? = some '\'' then do
          let (content, last) ← readQuoted? inFlow margin quote fuel (place.skip 2)
          return ('\'' :: content, last)
        else some ([], place.step)
      else if c == '\\' && quote == '"' then
        if cs.head? = some '\n' then do
          let gap ← quotedGap? margin true (fuel + 1) ⟨[], 0, place.skip 2⟩
          let (content, last) ← readQuoted? inFlow margin quote fuel gap.next
          return (List.replicate gap.lineEnds '\n' ++ content, last)
        else do
          let (escaped, length) ← readEscape? cs
          let (content, last) ← readQuoted? inFlow margin quote fuel (place.skip (length + 1))
          return (escaped :: content, last)
      else if isBlank c || c == '\n' then do
        let gap ← quotedGap? margin false (fuel + 1) ⟨[], 0, place⟩
        if gap.lineEnds = 0 || mayContinue inFlow margin quote gap.next then
          let (content, last) ← readQuoted? inFlow margin quote fuel gap.next
          return (gap.content ++ content, last)
        else none
      else do
        let (content, last) ← readQuoted? inFlow margin quote fuel place.step
        return (c :: content, last)

/-- What may follow a closing quote: the end of the line, the colon of a key on the same line, or in
a flow collection its punctuation. -/
def endsQuoted (inFlow : Bool) (opened : Place) (behind : Place) : Bool :=
  match behind.rest with
  | [] => true
  | '\n' :: _ => true
  | ':' :: _ => inFlow || behind.line == opened.line
  | c :: _ => inFlow && (c == ',' || c == ']' || c == '\x7d')

/-- A quoted scalar and the place behind it and the blanks after it. -/
def quotedScalar? (inFlow : Bool) (margin : Int) (place : Place) :
    Option (List Char × Place) := do
  let quote ← place.rest.head?
  let (content, closed) ← readQuoted? inFlow margin quote (place.rest.length + 1) place.step
  let behind ← closed.pastBlanks?
  if endsQuoted inFlow place behind then return (content, behind) else none

/-- Whether a colon before these characters ends a plain scalar. -/
def endsKey (inFlow : Bool) (cs : List Char) : Bool :=
  standsAlone cs || (inFlow && (cs.head?.map isFlowMark).getD false)

/-- The characters of a plain scalar up to the next blank. -/
def plainWord (inFlow : Bool) : List Char → List Char
  | [] => []
  | c :: cs =>
    if isBlank c || c == '\n' || (c == ':' && endsKey inFlow cs) || (inFlow && isFlowMark c) then []
    else c :: plainWord inFlow cs

/-- The gap at a place in a plain scalar. To the left of the margin only an empty line has a tab.
The fuel bounds the characters. -/
def plainGap? (margin : Int) : Nat → Gap → Option Gap
  | 0, _ => none
  | fuel + 1, gap =>
    match gap.next.rest with
    | '\n' :: _ =>
      plainGap? margin fuel ⟨[], gap.lineEnds + 1, gap.next.step⟩
    | c :: _ =>
      if !isBlank c then some gap
      else if !gap.next.fresh then
        plainGap? margin fuel ⟨gap.blanks ++ [c], gap.lineEnds, gap.next.step⟩
      else if c == '\t' && (gap.next.column : Int) < margin then do
        let behind ← gap.next.pastBlanks?
        if atLineEnd behind.rest then plainGap? margin fuel { gap with next := behind } else none
      else plainGap? margin fuel { gap with next := gap.next.step }
    | [] => some gap

/-- The content of a plain scalar from a word on, behind what the gap before it is read as, and the
place of what follows. In a block a line to the left of the margin ends it. The fuel bounds the
words. -/
def readPlain? (inFlow : Bool) (margin : Int) :
    Nat → List Char → Place → Option (List Char × Place)
  | 0, _, _ => none
  | fuel + 1, between, place =>
    if (place.fresh && place.hasBoundary) || place.rest.head? = some '#' then some ([], place)
    else
      let dash := place.rest.head? = some '-' && (place.rest.tail.head?.map isFlowMark).getD false
      if inFlow && dash then none
      else
        let word := plainWord inFlow place.rest
        let content := if word.isEmpty then [] else between ++ word
        let behind := place.skip word.length
        if behind.rest.isEmpty || !standsAlone behind.rest then some (content, behind)
        else do
          let gap ← plainGap? margin (behind.rest.length + 1) ⟨[], 0, behind⟩
          if !inFlow && (gap.next.column : Int) < margin then return (content, gap.next)
          else
            let (more, last) ← readPlain? inFlow margin fuel gap.content gap.next
            return (content ++ more, last)

/-- A plain scalar and the place of what follows. It stands to the right of the block around it. -/
def plainScalar? (inFlow : Bool) (indent : Int) (place : Place) : Option (List Char × Place) :=
  if inFlow && (place.column : Int) < indent + 1 then none
  else readPlain? inFlow (indent + 1) (place.rest.length + 1) [] place

end DecisionTree.Yaml
