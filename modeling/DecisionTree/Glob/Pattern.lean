/-!
Path patterns. A question mark stands for one character, a star for any number of them, brackets
for one of a set (or, after an exclamation mark, one outside it), and two stars that are a whole
path component for any number of directories. What cannot be read as such a pattern is an error at
a position counted in characters.
-/

namespace DecisionTree.Glob

inductive Member where
  | single (c : Char)
  | range (first last : Char)
  deriving DecidableEq, Repr

inductive Piece where
  | literal (c : Char)
  | anyCharacter
  | anyText
  /-- any number of directories -/
  | anyDepth
  | within (members : List Member)
  | outside (members : List Member)
  deriving DecidableEq, Repr

abbrev Pattern := List Piece

inductive Fault where
  /-- three or more stars in a row -/
  | tooManyStars
  /-- two stars beside other characters of a path component -/
  | partialRecursion
  /-- brackets without an end -/
  | openRange
  deriving DecidableEq, Repr

structure PatternError where
  position : Nat
  fault : Fault
  deriving DecidableEq, Repr

def Fault.description : Fault → String
  | .tooManyStars => "wildcards are either regular `*` or recursive `**`"
  | .partialRecursion => "recursive wildcards must form a single path component"
  | .openRange => "invalid range pattern"

def PatternError.message (error : PatternError) : String :=
  s!"Pattern syntax error near position {error.position}: {error.fault.description}"

/-- The entries of a set between its brackets: three characters of which the second is a hyphen
are a range. -/
def members : List Char → List Member
  | first :: '-' :: last :: rest => .range first last :: members rest
  | c :: rest => .single c :: members rest
  | [] => []

/-- The set that ends at the first closing bracket behind its first character, and what follows
that bracket. -/
def readSet? : List Char → Option (List Member × List Char)
  | [] => none
  | first :: cs =>
    match cs.dropWhile (· != ']') with
    | [] => none
    | _ :: rest => some (members (first :: cs.takeWhile (· != ']')), rest)

def readRange? : List Char → Option (Piece × List Char)
  | '!' :: cs => (readSet? cs).map fun (set, rest) => (.outside set, rest)
  | cs => (readSet? cs).map fun (set, rest) => (.within set, rest)

/-- Puts a piece for any depth in front, unless one stands there already. -/
def consDepth : Pattern → Pattern
  | .anyDepth :: rest => .anyDepth :: rest
  | rest => .anyDepth :: rest

/-- The pieces of a pattern from a position on, where `opens` tells whether a path component
begins there. The fuel bounds the characters left. -/
def readFrom : Nat → Nat → Bool → List Char → Except PatternError Pattern
  | _, _, _, [] => .ok []
  | 0, _, _, _ => .ok []
  | fuel + 1, position, opens, c :: cs =>
    match c with
    | '?' => (readFrom fuel (position + 1) false cs).map (.anyCharacter :: ·)
    | '[' =>
      match readRange? cs with
      | none => .error ⟨position, .openRange⟩
      | some (piece, rest) =>
        (readFrom fuel (position + (cs.length + 1 - rest.length)) false rest).map (piece :: ·)
    | '*' =>
      match cs with
      | '*' :: '*' :: _ => .error ⟨position + 2, .tooManyStars⟩
      | '*' :: rest =>
        if opens then
          match rest with
          | [] => .ok [.anyDepth]
          | '/' :: below => (readFrom fuel (position + 3) true below).map consDepth
          | _ => .error ⟨position + 2, .partialRecursion⟩
        else .error ⟨position - 1, .partialRecursion⟩
      | rest => (readFrom fuel (position + 1) false rest).map (.anyText :: ·)
    | c => (readFrom fuel (position + 1) (c == '/') cs).map (.literal c :: ·)

def read (pattern : String) : Except PatternError Pattern :=
  readFrom pattern.length 0 true pattern.toList

/-- Whether a character belongs to an entry of a set. -/
def Member.holds (c : Char) : Member → Bool
  | .single other => c == other
  | .range first last => first ≤ c && c ≤ last

/-- Whether a piece other than those for any text stands for a character. -/
def Piece.holds (c : Char) : Piece → Bool
  | .literal other => c == other
  | .anyCharacter => true
  | .within set => set.any (·.holds c)
  | .outside set => !set.any (·.holds c)
  | _ => false

/-- The ends of a text, from the whole text to the empty one. -/
def endings : List Char → List (List Char)
  | [] => [[]]
  | c :: cs => (c :: cs) :: endings cs

/-- Whether a name without slashes matches a pattern. -/
def isMatch : Pattern → List Char → Bool
  | [], cs => cs.isEmpty
  | .anyText :: rest, cs => (endings cs).any (isMatch rest)
  | .anyDepth :: rest, cs => (endings cs).any (isMatch rest)
  | piece :: rest, c :: cs => piece.holds c && isMatch rest cs
  | _ :: _, [] => false

end DecisionTree.Glob
