import DecisionTree.Json.Basic
import DecisionTree.Text.Digits

/-!
Reading JSON texts strictly: no comments, trailing commas, leading zeros or bare words. A `\u`
escape must stand for a character, alone or as a surrogate pair, and containers nest at most
`deepest` levels. What a number stands for is a rule of its own; under that of the library it keeps
64 bits of its digits, is rounded at working precision and must not exceed the range of a double.
-/

namespace DecisionTree.Json

/-- Levels of arrays and objects inside one another. -/
def deepest : Nat := 127

/-- The characters that may stand between tokens. -/
def isSpace (c : Char) : Bool :=
  c == ' ' || c == '\t' || c == '\n' || c == '\r'

def skipSpace (cs : List Char) : List Char :=
  cs.dropWhile isSpace

/-- A piece of a string: a character, or a 16-bit unit written as a `\u` escape. -/
inductive Piece where
  | plain (c : Char)
  | unit (code : Nat)

/-- The character that a letter behind a backslash stands for. -/
def unescapeLetter? : Char → Option Char
  | '"' => some '"'
  | '\\' => some '\\'
  | '/' => some '/'
  | 'b' => some '\x08'
  | 'f' => some '\x0c'
  | 'n' => some '\n'
  | 'r' => some '\r'
  | 't' => some '\t'
  | _ => none

/-- The pieces of a string after its opening quote, and what follows the closing one. -/
def readPieces? : List Char → Option (List Piece × List Char)
  | [] => none
  | '"' :: rest => some ([], rest)
  | '\\' :: 'u' :: a :: b :: c :: d :: rest => do
    let code ← Text.valueIn? 16 [a, b, c, d]
    let (pieces, after) ← readPieces? rest
    return (.unit code :: pieces, after)
  | '\\' :: letter :: rest => do
    let c ← unescapeLetter? letter
    let (pieces, after) ← readPieces? rest
    return (.plain c :: pieces, after)
  | c :: rest =>
    if c == '\\' || c.toNat < 0x20 then none
    else do
      let (pieces, after) ← readPieces? rest
      return (.plain c :: pieces, after)

/-- The characters of a string. A unit of the upper surrogates needs one of the lower right behind
it, and those stand nowhere else. -/
def joinPieces? : List Piece → Option (List Char)
  | [] => some []
  | .plain c :: rest => (joinPieces? rest).map (c :: ·)
  | .unit high :: .unit low :: rest =>
    if high < 0xD800 ∨ 0xDFFF < high then
      (joinPieces? (.unit low :: rest)).map (Char.ofNat high :: ·)
    else if high < 0xDC00 ∧ 0xDC00 ≤ low ∧ low ≤ 0xDFFF then
      let code := 0x10000 + (high - 0xD800) * 0x400 + (low - 0xDC00)
      (joinPieces? rest).map (Char.ofNat code :: ·)
    else none
  | .unit code :: rest =>
    if code < 0xD800 ∨ 0xDFFF < code then (joinPieces? rest).map (Char.ofNat code :: ·) else none

def readString? (cs : List Char) : Option (String × List Char) := do
  let (pieces, rest) ← readPieces? cs
  let content ← joinPieces? pieces
  return (String.ofList content, rest)

def spanDigits (cs : List Char) : List Char × List Char :=
  (cs.takeWhile Char.isDigit, cs.dropWhile Char.isDigit)

/-- The digits before the point: a zero alone, or digits that do not begin with one. -/
def readWhole? : List Char → Option (List Char × List Char)
  | '0' :: rest => some (['0'], rest)
  | cs =>
    let (digits, rest) := spanDigits cs
    if digits.isEmpty then none else some (digits, rest)

/-- The digits behind a point, of which there must be some; none without a point. -/
def readFraction? : List Char → Option (List Char × List Char)
  | '.' :: cs =>
    let (digits, rest) := spanDigits cs
    if digits.isEmpty then none else some (digits, rest)
  | cs => some ([], cs)

/-- The exponent, of which there must be digits; 0 if there is none. -/
def readPower? : List Char → Option (Int × List Char)
  | c :: cs =>
    if c = 'e' ∨ c = 'E' then
      let (minus, unsigned) := Decimal.splitSign cs
      let (digits, rest) := spanDigits unsigned
      if digits.isEmpty then none
      else
        let n : Int := Decimal.valueOfDigits digits
        some (if minus then -n else n, rest)
    else some (0, c :: cs)
  | [] => some (0, [])

/-- Takes digits behind those that give `soFar` as long as 64 bits hold the number: the number, and
how many digits are left out, which are the first one that does not fit and all behind it. -/
def keepDigits (soFar : Nat) : List Char → Nat × Nat
  | [] => (soFar, 0)
  | c :: cs =>
    let next := 10 * soFar + (c.toNat - '0'.toNat)
    if next < Nat.pow 2 64 then keepDigits next cs else (soFar, cs.length + 1)

/-- The decimal of the digits on either side of the point. Each side is taken as far as 64 bits
hold it, so that digits behind the point may follow those kept of a whole part that was cut. -/
def keptDecimal (negative : Bool) (whole fraction : List Char) (power : Int) : Decimal :=
  let (kept, cut) := keepDigits 0 whole
  let (digits, unread) := keepDigits kept fraction
  ⟨negative, digits, power + cut - (fraction.length - unread : Nat)⟩

/-- What a number stands for by its sign, its digits on either side of the point and its power of
ten; none if it is refused. -/
abbrev NumberRule := Bool → List Char → List Char → Int → Option FiniteFloat

/-- A number keeps the digits that 64 bits hold, is read from them at working precision, and is
refused beyond the range of a double. -/
def keptInRange : NumberRule := fun negative whole fraction power =>
  FiniteFloat.of? (keptDecimal negative whole fraction power).approximate

def readMagnitude? (rule : NumberRule) (negative : Bool) (cs : List Char) :
    Option (Json × List Char) := do
  let (whole, afterWhole) ← readWhole? cs
  let (fraction, afterFraction) ← readFraction? afterWhole
  let (power, rest) ← readPower? afterFraction
  let value ← rule negative whole fraction power
  return (.number value, rest)

def readNumber? (rule : NumberRule) : List Char → Option (Json × List Char)
  | '-' :: cs => readMagnitude? rule true cs
  | cs => readMagnitude? rule false cs

mutual

/-- A value and what follows it, with `room` levels left for containers. -/
def readValue? (rule : NumberRule) : Nat → Nat → List Char → Option (Json × List Char)
  | 0, _, _ => none
  | fuel + 1, room, cs =>
    match skipSpace cs with
    | 'n' :: 'u' :: 'l' :: 'l' :: rest => some (.null, rest)
    | 't' :: 'r' :: 'u' :: 'e' :: rest => some (.bool true, rest)
    | 'f' :: 'a' :: 'l' :: 's' :: 'e' :: rest => some (.bool false, rest)
    | '"' :: rest => (readString? rest).map fun (content, after) => (.string content, after)
    | '[' :: rest =>
      if room = 0 then none
      else match skipSpace rest with
        | ']' :: after => some (.array [], after)
        | _ => (readItems? rule fuel (room - 1) rest).map
            fun (items, after) => (.array items, after)
    | '{' :: rest =>
      if room = 0 then none
      else match skipSpace rest with
        | '}' :: after => some (.object [], after)
        | _ =>
          (readMembers? rule fuel (room - 1) rest).map
            fun (members, after) => (.object members, after)
    | digits => readNumber? rule digits

/-- The items of an array up to its closing bracket; there must be one. -/
def readItems? (rule : NumberRule) : Nat → Nat → List Char → Option (List Json × List Char)
  | 0, _, _ => none
  | fuel + 1, room, cs => do
    let (item, afterItem) ← readValue? rule fuel room cs
    match skipSpace afterItem with
    | ',' :: rest => do
      let (items, after) ← readItems? rule fuel room rest
      return (item :: items, after)
    | ']' :: rest => return ([item], rest)
    | _ => none

/-- The members of an object up to its closing brace; there must be one. -/
def readMembers? (rule : NumberRule) :
    Nat → Nat → List Char → Option (List (String × Json) × List Char)
  | 0, _, _ => none
  | fuel + 1, room, cs =>
    match skipSpace cs with
    | '"' :: nameStart => do
      let (name, afterName) ← readString? nameStart
      match skipSpace afterName with
      | ':' :: valueStart => do
        let (value, afterValue) ← readValue? rule fuel room valueStart
        match skipSpace afterValue with
        | ',' :: rest => do
          let (members, after) ← readMembers? rule fuel room rest
          return ((name, value) :: members, after)
        | '}' :: rest => return ([(name, value)], rest)
        | _ => none
      | _ => none
    | _ => none

end

/-- A whole text as one JSON value with numbers under a rule. Every call of the mutual readers but
the first consumes a character before it calls another one twice, so twice the length bounds the
calls. -/
def readUnder? (rule : NumberRule) (text : String) : Option Json := do
  let cs := text.toList
  let (value, rest) ← readValue? rule (2 * cs.length + 2) deepest cs
  if (skipSpace rest).isEmpty then return value else none

def read? (text : String) : Option Json :=
  readUnder? keptInRange text

end DecisionTree.Json
