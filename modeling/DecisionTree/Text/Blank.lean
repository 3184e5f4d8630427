/-!
White space in the sense of the Unicode property `White_Space`, and the trimming that every
reader of this library applies. Nothing else counts as blank: the zero-width space and the
byte order mark are ordinary characters.
-/

namespace DecisionTree.Text

/-- Closed ranges of code points with the property `White_Space`, ascending and apart. -/
def blankRanges : List (Nat × Nat) :=
  [(0x09, 0x0D), (0x20, 0x20), (0x85, 0x85), (0xA0, 0xA0), (0x1680, 0x1680),
   (0x2000, 0x200A), (0x2028, 0x2029), (0x202F, 0x202F), (0x205F, 0x205F), (0x3000, 0x3000)]

/-- A character of the property `White_Space`. -/
def isBlank (c : Char) : Bool :=
  blankRanges.any fun range => range.1 ≤ c.toNat && c.toNat ≤ range.2

/-- Drops the elements at the end that satisfy the test. -/
def dropEnd (test : Char → Bool) (cs : List Char) : List Char :=
  (cs.reverse.dropWhile test).reverse

def trimmed (cs : List Char) : List Char :=
  dropEnd isBlank (cs.dropWhile isBlank)

def trim (text : String) : String :=
  String.ofList (trimmed text.toList)

end DecisionTree.Text
