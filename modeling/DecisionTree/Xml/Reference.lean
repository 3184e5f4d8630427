import DecisionTree.Text.Digits
import DecisionTree.Xml.Token

namespace DecisionTree.Xml

/-- A character of a text, as it stands there or as a reference to it. -/
inductive Written where
  | literal (c : Char)
  | reference (c : Char)
  deriving DecidableEq

def namedReference? (name : List Char) : Option Char :=
  match String.ofList name with
  | "quot" => some '"'
  | "amp" => some '&'
  | "apos" => some '\''
  | "lt" => some '<'
  | "gt" => some '>'
  | _ => none

/-- The character of a reference by code point. The number has 32 bits; where it is no code point
of a character it stands for the replacement character. -/
def numberedReference? (base : Nat) (digits : List Char) : Option Char := do
  if digits.isEmpty then none
  let code ← Text.valueIn? base digits
  if Nat.pow 2 32 ≤ code then none
  let c := if code.isValidChar then Char.ofNat code else '\uFFFD'
  if isAllowed c then return c else none

/-- The character of a reference between the ampersand and the semicolon. -/
def reference? : List Char → Option Char
  | '#' :: 'x' :: digits => numberedReference? 16 digits
  | '#' :: digits => numberedReference? 10 digits
  | name => namedReference? name

/-- The characters of a text with its references resolved. The fuel bounds their number. -/
def resolve? : Nat → List Char → Option (List Written)
  | _, [] => some []
  | 0, _ => none
  | fuel + 1, '&' :: cs => do
    let (name, rest) ← Text.cutAt? ';' cs
    let c ← reference? name
    let later ← resolve? fuel rest
    return .reference c :: later
  | fuel + 1, c :: cs => (resolve? fuel cs).map (.literal c :: ·)

/-- How a carriage return that no line feed follows is read: as a line feed, but it is kept
directly before a reference, and at the end directly behind one. -/
def loneReturn (afterReference : Bool) : List Written → Char
  | [] => if afterReference then '\r' else '\n'
  | .literal _ :: _ => '\n'
  | .reference _ :: _ => '\r'

/-- Text with uniform line ends: a carriage return with a line feed is one line feed. -/
def lineEnds (afterReference : Bool) : List Written → List Char
  | [] => []
  | .literal '\r' :: .literal '\n' :: rest => '\n' :: lineEnds false rest
  | .literal '\r' :: rest => loneReturn afterReference rest :: lineEnds false rest
  | .literal c :: rest => c :: lineEnds false rest
  | .reference c :: rest => c :: lineEnds true rest

/-- An attribute value in which spaces of every kind are blanks: a carriage return with a line
feed is one of them. -/
def spaced : List Written → List Char
  | [] => []
  | .literal '\r' :: .literal '\n' :: rest => ' ' :: spaced rest
  | .literal c :: rest => (if isSpace c then ' ' else c) :: spaced rest
  | .reference c :: rest => c :: spaced rest

def readContent? (written : List Char) : Option (List Char) :=
  (resolve? written.length written).map (lineEnds false)

def markedContent (written : List Char) : List Char :=
  lineEnds false (written.map .literal)

def readValue? (written : List Char) : Option (List Char) :=
  (resolve? written.length written).map spaced

end DecisionTree.Xml
