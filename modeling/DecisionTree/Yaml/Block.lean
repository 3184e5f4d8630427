import DecisionTree.Yaml.Place

namespace DecisionTree.Yaml

/-- What becomes of the line ends after the last line: none, one or all of them are kept. -/
inductive Chomping where
  | strip
  | clip
  | keep
  deriving DecidableEq, Repr

structure BlockHeader where
  folded : Bool
  chomping : Chomping := .clip
  /-- how much further to the right than the block around it the lines stand, if that is given -/
  indentation : Option Nat := none

/-- The chomping that a sign asks for. -/
def chompingOf? : Char → Option Chomping
  | '-' => some .strip
  | '+' => some .keep
  | _ => none

/-- The indentation that a digit gives; it is not 0. -/
def indentationOf? (c : Char) : Option Nat :=
  if c.isDigit && c != '0' then some (c.toNat - '0'.toNat) else none

/-- A header, and the number of characters it takes. A sign and a digit may stand in either
order. -/
def BlockHeader.read? : List Char → Option (BlockHeader × Nat)
  | mark :: a :: cs =>
    let folded := mark == '>'
    let second := cs.head?.getD ' '
    match chompingOf? a with
    | some chomping =>
      if second.isDigit then
        (indentationOf? second).map fun n => (⟨folded, chomping, some n⟩, 3)
      else some (⟨folded, chomping, none⟩, 2)
    | none =>
      if a.isDigit then
        (indentationOf? a).map fun n =>
          match chompingOf? second with
          | some chomping => (⟨folded, chomping, some n⟩, 3)
          | none => (⟨folded, .clip, some n⟩, 2)
      else some (⟨folded, .clip, none⟩, 1)
  | mark :: [] => some (⟨mark == '>', .clip, none⟩, 1)
  | [] => none

/-- The number of empty lines here, and the place behind them and the indentation of the next line.
The fuel bounds the lines. -/
def skipEmptyLines (indent : Nat) : Nat → Nat → Place → Nat × Place
  | 0, count, place => (count, place)
  | fuel + 1, count, place =>
    let spaces := (place.rest.takeWhile (· == ' ')).length
    let behind := place.skip (min spaces (indent - place.column))
    if behind.rest.head? = some '\n' then skipEmptyLines indent fuel (count + 1) behind.step
    else (count, behind)

/-- The number of empty lines here, the greatest column reached by the spaces in them and in the
next line, and the place behind those. The fuel bounds the lines. -/
def measureEmptyLines : Nat → Nat → Nat → Place → Nat × Nat × Place
  | 0, count, widest, place => (count, widest, place)
  | fuel + 1, count, widest, place =>
    let behind := place.skipWhile (· == ' ')
    let widest := max widest behind.column
    if behind.rest.head? = some '\n' then
      measureEmptyLines fuel (count + 1) widest behind.step
    else (count, widest, behind)

/-- What has been read of the lines of a block scalar. -/
structure BlockLines where
  content : List Char := []
  /-- whether a line end follows the last line -/
  ended : Bool := false
  /-- the number of empty lines after it -/
  empty : Nat
  /-- whether the last line begins with a blank -/
  afterBlank : Bool := false

def BlockLines.between (lines : BlockLines) (folded beginsBlank : Bool) : List Char :=
  let empty := List.replicate lines.empty '\n'
  if folded && lines.ended && !lines.afterBlank && !beginsBlank then
    if lines.empty = 0 then [' '] else empty
  else (if lines.ended then ['\n'] else []) ++ empty

/-- The lines of a block scalar with this indentation. The fuel bounds their number. -/
def readLines (folded : Bool) (indent : Nat) : Nat → BlockLines → Place → BlockLines × Place
  | 0, lines, place => (lines, place)
  | fuel + 1, lines, place =>
    if place.column ≠ indent || place.rest.isEmpty then (lines, place)
    else
      let beginsBlank := (place.rest.head?.map isBlank).getD false
      let line := place.rest.takeWhile (· != '\n')
      let content := lines.content ++ lines.between folded beginsBlank ++ line
      let behind := place.lineEnd
      if behind.rest.isEmpty then (⟨content, false, 0, beginsBlank⟩, behind)
      else
        let (empty, next) := skipEmptyLines indent (behind.rest.length + 1) 0 behind.step
        readLines folded indent fuel ⟨content, true, empty, beginsBlank⟩ next

/-- The content of the lines with what the header keeps of the line ends after them. A last line
without a line end is given one. -/
def BlockLines.chomped (lines : BlockLines) (chomping : Chomping) (indent : Nat) (last : Place) :
    List Char :=
  let ended := if lines.ended then ['\n'] else []
  let supplied := if last.rest.isEmpty && max indent 1 ≤ last.column then ['\n'] else []
  match chomping with
  | .strip => lines.content
  | .clip => lines.content ++ ended ++ supplied
  | .keep => lines.content ++ ended ++ supplied ++ List.replicate lines.empty '\n'

/-- The content of a block scalar that the document ends in before it has a line. -/
def emptyContent (chomping : Chomping) (oneLine : Bool) (empty : Nat) : List Char :=
  if chomping = .strip || oneLine then []
  else if chomping = .clip || empty = 0 then ['\n']
  else List.replicate empty '\n'

/-- A block scalar in a block that stands in column `around`, and the place of what follows. -/
def blockScalar? (around : Int) (place : Place) : Option (List Char × Place) := do
  let (header, length) ← BlockHeader.read? place.rest
  let behind ← (place.skip length).pastBlanks?
  if !atLineEnd behind.rest then none
  let start := behind.step
  if start.rest.head? = some '\t' then none
  let fuel := start.rest.length + 1
  let least := (around + 1).toNat
  let (empty, indent, first) := match header.indentation with
    | some n =>
      let indent := (max around 0).toNat + n
      let (empty, first) := skipEmptyLines indent fuel 0 start
      (empty, indent, first)
    | none =>
      let (empty, widest, first) := measureEmptyLines fuel 0 0 start
      (empty, max widest least, first)
  if first.rest.isEmpty then
    return (emptyContent header.chomping (first.line == place.line) empty, first)
  else if first.column < indent && around < (first.column : Int) then none
  else
    let (lines, last) := readLines header.folded indent fuel { empty } first
    return (lines.chomped header.chomping indent last, last)

end DecisionTree.Yaml
