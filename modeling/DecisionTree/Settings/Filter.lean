import DecisionTree.Decimal.Basic
import DecisionTree.Text.Blank
import DecisionTree.Text.Split

namespace DecisionTree.LogFilter

/-- The words for levels. -/
def levels : List String :=
  ["trace", "debug", "info", "warn", "error", "off"]

/-- Whether a word is a level: a number up to 5, or a word for one in any letter case. -/
def isLevel (word : List Char) : Bool :=
  match Decimal.readDigits? (if word.head? = some '+' then word.tail else word) with
  | some n => n ≤ 5
  | none => levels.any fun level => level.toList == word.map Char.toLower

/-- Whether a level, or nothing, stands behind an equals sign. -/
def isLevelOrEmpty (word : List Char) : Bool :=
  word.isEmpty || isLevel word

/-- A character with which a target may begin. Beyond ASCII all count as letters. -/
def startsTarget (c : Char) : Bool :=
  c.isAlphanum || c == '_' || c == '-' || c == ':' || 0x80 ≤ c.toNat

/-- Whether nothing but a level stands behind a span. -/
def endsBehindSpan : List Char → Bool
  | [] => true
  | '=' :: level => isLevelOrEmpty level
  | _ => false

/-- Whether a directive can be read behind the bracket that opens a span. A field in the span
stands in braces at its end and is not empty. -/
def isSpan (cs : List Char) : Bool :=
  match cs.dropWhile fun c => c != ']' && c != '\x7b' with
  | ']' :: rest => endsBehindSpan rest
  | '\x7b' :: fields =>
    match fields.dropWhile (· != '\x7d') with
    | '\x7d' :: ']' :: rest => fields.head? != some '\x7d' && endsBehindSpan rest
    | _ => false
  | _ => false

/-- Whether a directive can be read behind the first character of its target. -/
def isTarget (cs : List Char) : Bool :=
  match cs.dropWhile fun c => c != '=' && c != '[' with
  | '=' :: level => isLevelOrEmpty level
  | '[' :: span => isSpan span
  | _ => true

/-- Whether a directive can be read. Blanks do not count, except that none stand beside one with a
level behind an equals sign. -/
def isDirective (directive : List Char) : Bool :=
  let trimmed := Text.trimmed directive
  (trimmed == directive || !trimmed.contains '=') &&
    match trimmed with
    | '[' :: span => isSpan span
    | c :: rest => startsTarget c && isTarget rest
    | [] => false

def isValid (filter : String) : Bool :=
  ((Text.pieces ',' filter.toList).filter (!List.isEmpty ·)).all isDirective

end DecisionTree.LogFilter
