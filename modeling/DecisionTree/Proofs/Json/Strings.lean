import DecisionTree.Json.Reader
import DecisionTree.Json.Writer
import Mathlib.Data.List.Basic

namespace DecisionTree.Json

variable {c : Char} {cs rest : List Char}

/-- No control characters. -/
def Printable (cs : List Char) : Prop :=
  ∀ c ∈ cs, 0x20 ≤ c.toNat

instance (cs : List Char) : Decidable (Printable cs) :=
  decidable_of_iff (cs.all fun c => 0x20 ≤ c.toNat) (by simp [Printable])

namespace Printable

theorem nil : Printable [] :=
  List.forall_mem_nil _

theorem cons (first : 0x20 ≤ c.toNat) (others : Printable cs) : Printable (c :: cs) :=
  List.forall_mem_cons.mpr ⟨first, others⟩

theorem append (front : Printable cs) (back : Printable rest) : Printable (cs ++ rest) :=
  List.forall_mem_append.mpr ⟨front, back⟩

private theorem flatMap {piece : Char → List Char} (each : ∀ c ∈ cs, Printable (piece c)) :
    Printable (cs.flatMap piece) := by
  intro d member
  obtain ⟨c, inside, written⟩ := List.mem_flatMap.mp member
  exact each c inside d written

end Printable

/-- A digit to the base 16 has its own value. -/
theorem digit?_hexDigit : ∀ n < 16, Text.digit? 16 (hexDigit n) = some n := by
  decide

/-- Two hexadecimal digits behind two zeros are read to their number. -/
theorem valueIn?_hexDigits {n : ℕ} (small : n < 256) :
    Text.valueIn? 16 ['0', '0', hexDigit (n / 16), hexDigit (n % 16)] = some n := by
  have zero : Text.digit? 16 '0' = some 0 := by decide
  have high := digit?_hexDigit (n / 16) (by omega)
  have low := digit?_hexDigit (n % 16) (by omega)
  simp only [Text.valueIn?, Text.valueFrom?, zero, high, low, Option.bind_eq_bind,
    Option.bind_some, Option.some.injEq]
  omega

/-- The letter behind a backslash stands for the character that it was written for. -/
theorem unescapeLetter?_of_escapeLetter? {letter : Char}
    (letterOf : escapeLetter? c = some letter) :
    unescapeLetter? letter = some c ∧ letter ≠ 'u' := by
  unfold escapeLetter? at letterOf
  split at letterOf <;> cases letterOf <;> decide

/-- What has no letter is neither the quote nor the backslash. -/
theorem ne_quote_of_escapeLetter? (noLetter : escapeLetter? c = none) : c ≠ '"' ∧ c ≠ '\\' := by
  constructor <;> rintro rfl <;> cases noLetter

/-- What is written for a character inside a string is printable. -/
theorem printable_escaped (c : Char) : Printable (escaped c) := by
  have hex : ∀ n < 16, 0x20 ≤ (hexDigit n).toNat := by decide
  rw [escaped]
  split
  next letter letterOf =>
    unfold escapeLetter? at letterOf
    split at letterOf <;> cases letterOf <;> decide
  next =>
    by_cases control : c.toNat < 0x20
    · have high := hex (c.toNat / 16) (by omega)
      have low := hex (c.toNat % 16) (by omega)
      have front : Printable ['\\', 'u', '0', '0'] := by decide
      rw [if_pos control]
      exact front.append (.cons high (.cons low .nil))
    · rw [if_neg control]
      exact .cons (Nat.le_of_not_lt control) .nil

/-- A quoted text is printable. -/
theorem printable_quoted (content : List Char) : Printable (quoted content) := by
  have quote : 0x20 ≤ '"'.toNat := by decide
  have inside : Printable (content.flatMap escaped) := .flatMap fun c _ => printable_escaped c
  exact (Printable.cons quote inside).append (.cons quote .nil)

/-- A letter behind a backslash is one piece. -/
theorem readPieces?_letter {letter : Char} (unescaped : unescapeLetter? letter = some c)
    (notUnit : letter ≠ 'u') (cs : List Char) :
    readPieces? ('\\' :: letter :: cs) =
      (readPieces? cs).map fun (pieces, after) => (.plain c :: pieces, after) := by
  rw [readPieces?.eq_4 letter cs fun _ _ _ _ _ unit _ => notUnit unit, unescaped]
  cases readPieces? cs <;> rfl

/-- A character that needs no escape is one piece. -/
theorem readPieces?_plain (notQuote : c ≠ '"') (notBackslash : c ≠ '\\')
    (printable : ¬c.toNat < 0x20) (cs : List Char) :
    readPieces? (c :: cs) =
      (readPieces? cs).map fun (pieces, after) => (.plain c :: pieces, after) := by
  rw [readPieces?.eq_5 c cs notQuote (fun _ _ _ _ _ same _ => notBackslash same)
    fun _ _ same _ => notBackslash same, if_neg (by simp [notBackslash, printable])]
  cases readPieces? cs <;> rfl

def pieceOf (c : Char) : Piece :=
  if escapeLetter? c = none ∧ c.toNat < 0x20 then .unit c.toNat else .plain c

private theorem readPieces?_escaped (c : Char) (cs : List Char) :
    readPieces? (escaped c ++ cs) =
      (readPieces? cs).map fun (pieces, after) => (pieceOf c :: pieces, after) := by
  unfold escaped pieceOf
  split
  next letter letterOf =>
    obtain ⟨unescaped, notUnit⟩ := unescapeLetter?_of_escapeLetter? letterOf
    rw [if_neg (by simp [letterOf])]
    exact readPieces?_letter unescaped notUnit cs
  next noLetter =>
    split
    next control =>
      rw [if_pos ⟨noLetter, control⟩]
      simp only [List.cons_append, List.nil_append]
      rw [readPieces?, valueIn?_hexDigits (by omega)]
      cases readPieces? cs <;> rfl
    next printable =>
      obtain ⟨notQuote, notBackslash⟩ := ne_quote_of_escapeLetter? noLetter
      rw [if_neg fun control => printable control.2]
      exact readPieces?_plain notQuote notBackslash printable cs

/-- Up to the closing quote there is one piece for each character. -/
theorem readPieces?_quoted (content rest : List Char) :
    readPieces? (content.flatMap escaped ++ '"' :: rest) = some (content.map pieceOf, rest) := by
  induction content with
  | nil => rfl
  | cons c content ih =>
    rw [List.flatMap_cons, List.append_assoc, readPieces?_escaped, ih]
    rfl

/-- No piece is a surrogate, so none waits for another one. -/
theorem joinPieces?_cons (c : Char) (pieces : List Piece) :
    joinPieces? (pieceOf c :: pieces) = (joinPieces? pieces).map (c :: ·) := by
  unfold pieceOf
  split
  next control =>
    have low : c.toNat < 0xD800 ∨ 0xDFFF < c.toNat := .inl (by omega)
    by_cases unit : ∃ code later, pieces = .unit code :: later
    · obtain ⟨code, later, rfl⟩ := unit
      rw [joinPieces?.eq_3, if_pos low, Char.ofNat_toNat]
    · rw [joinPieces?.eq_4 _ _ fun code later same => unit ⟨code, later, same⟩, if_pos low,
        Char.ofNat_toNat]
  next => exact joinPieces?.eq_2 c pieces

private theorem joinPieces?_map (content : List Char) :
    joinPieces? (content.map pieceOf) = some content := by
  induction content with
  | nil => rfl
  | cons c content ih => rw [List.map_cons, joinPieces?_cons, ih, Option.map_some]

/-- A text in quotes reads back to it. -/
theorem readString?_quoted (content : String) (rest : List Char) :
    readString? (content.toList.flatMap escaped ++ '"' :: rest) = some (content, rest) := by
  rw [readString?, readPieces?_quoted]
  simp only [Option.bind_eq_bind, Option.bind_some, joinPieces?_map, String.ofList_toList]
  rfl

end DecisionTree.Json
