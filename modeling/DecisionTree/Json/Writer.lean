import DecisionTree.Json.Basic

namespace DecisionTree.Json

/-- The digit of a number below 16, in lower case. -/
def hexDigit (n : Nat) : Char :=
  if n < 10 then Char.ofNat (48 + n) else Char.ofNat (87 + n)

/-- The letter that stands behind the backslash for a character that has one. -/
def escapeLetter? : Char → Option Char
  | '"' => some '"'
  | '\\' => some '\\'
  | '\x08' => some 'b'
  | '\t' => some 't'
  | '\n' => some 'n'
  | '\x0c' => some 'f'
  | '\r' => some 'r'
  | _ => none

def escaped (c : Char) : List Char :=
  match escapeLetter? c with
  | some letter => ['\\', letter]
  | none =>
    if c.toNat < 0x20 then ['\\', 'u', '0', '0', hexDigit (c.toNat / 16), hexDigit (c.toNat % 16)]
    else [c]

def quoted (content : List Char) : List Char :=
  '"' :: content.flatMap escaped ++ ['"']

mutual

/-- The text of a value. -/
def write : Json → List Char
  | .null => ['n', 'u', 'l', 'l']
  | .bool true => ['t', 'r', 'u', 'e']
  | .bool false => ['f', 'a', 'l', 's', 'e']
  | .number x => (Decimal.ofFloat .even x.val).scientific
  | .string content => quoted content.toList
  | .array items => '[' :: writeItems items
  | .object members => '{' :: writeMembers members

/-- The items of an array after its opening bracket, and the closing one. -/
def writeItems : List Json → List Char
  | [] => [']']
  | [item] => write item ++ [']']
  | item :: rest => write item ++ ',' :: writeItems rest

/-- The members of an object after its opening brace, and the closing one. -/
def writeMembers : List (String × Json) → List Char
  | [] => ['}']
  | [(name, value)] => quoted name.toList ++ ':' :: write value ++ ['}']
  | (name, value) :: rest => quoted name.toList ++ ':' :: write value ++ ',' :: writeMembers rest

end

def text (value : Json) : String :=
  String.ofList value.write

end DecisionTree.Json
