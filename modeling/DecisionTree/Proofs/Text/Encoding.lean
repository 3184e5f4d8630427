import DecisionTree.Table
import Mathlib.Data.List.Lex
import Mathlib.Tactic.SplitIfs

namespace DecisionTree.Text

open String (utf8EncodeChar)

def utf8 (text : String) : List UInt8 :=
  text.toUTF8.data.toList

private theorem utf8_eq_flatMap (text : String) :
    utf8 text = text.toList.flatMap utf8EncodeChar := by
  rw [utf8, String.toUTF8_eq_toByteArray, ← String.utf8Encode_toList, List.utf8Encode,
    List.data_toByteArray]

theorem ofNat_lt_iff {m n : Nat} (first : m < 256) (second : n < 256) :
    UInt8.ofNat m < UInt8.ofNat n ↔ m < n := by
  rw [UInt8.lt_iff_toNat_lt, UInt8.toNat_ofNat_of_lt' first, UInt8.toNat_ofNat_of_lt' second]

theorem ofNat_eq_iff {m n : Nat} (first : m < 256) (second : n < 256) :
    UInt8.ofNat m = UInt8.ofNat n ↔ m = n := by
  rw [← UInt8.toNat_inj, UInt8.toNat_ofNat_of_lt' first, UInt8.toNat_ofNat_of_lt' second]

/-- Whatever follows them, encodings are ordered like the code points of their characters. -/
theorem encoding_lt {c d : Char} (less : c < d) (xs ys : List UInt8) :
    utf8EncodeChar c ++ xs < utf8EncodeChar d ++ ys := by
  have below : c.val.toNat < d.val.toNat := less
  have bound : d.val.toNat < 0x110000 := by
    rcases d.valid with low | high
    · exact Nat.lt_trans low (by decide)
    · exact high.2
  unfold utf8EncodeChar
  dsimp only
  generalize c.val.toNat = m at *
  generalize d.val.toNat = n at *
  -- the bytes are digits to the base 64, of which the first that differs decides
  have fourth : m / 64 < n / 64 ∨ m / 64 = n / 64 ∧ m % 64 < n % 64 := by omega
  have third : m / 4096 < n / 4096 ∨ m / 4096 = n / 4096 ∧ m / 64 % 64 ≤ n / 64 % 64 := by omega
  have second : m / 262144 < n / 262144 ∨
      m / 262144 = n / 262144 ∧ m / 4096 % 64 ≤ n / 4096 % 64 := by omega
  have first : m / 262144 % 8 = m / 262144 ∧ n / 262144 % 8 = n / 262144 := by omega
  rw [first.1, first.2]
  -- encodings of different length differ in their first byte
  split_ifs <;> simp (disch := omega) only [List.cons_append, List.nil_append,
    List.cons_lt_cons_iff, ofNat_lt_iff, ofNat_eq_iff] <;> omega

private theorem flatMap_encoding_lt {xs ys : List Char} (less : xs < ys) :
    xs.flatMap utf8EncodeChar < ys.flatMap utf8EncodeChar := by
  induction xs generalizing ys with
  | nil =>
    cases ys with
    | nil => exact absurd less (List.lt_irrefl _)
    | cons d ys =>
      rw [List.flatMap_nil, List.flatMap_cons]
      cases encoding : utf8EncodeChar d with
      | nil => exact absurd encoding String.utf8EncodeChar_ne_nil
      | cons byte rest => exact List.nil_lt_cons ..
  | cons c xs ih =>
    cases ys with
    | nil => exact absurd less (List.not_lt_nil _)
    | cons d ys =>
      rw [List.flatMap_cons, List.flatMap_cons]
      rcases List.cons_lt_cons_iff.mp less with smaller | ⟨rfl, later⟩
      · exact encoding_lt smaller _ _
      · exact List.append_left_lt (ih later)

private theorem utf8_lt_of_lt {first second : String} (less : first < second) :
    utf8 first < utf8 second := by
  rw [utf8_eq_flatMap, utf8_eq_flatMap]
  exact flatMap_encoding_lt less

/-- Texts are ordered by their UTF-8 bytes. -/
theorem utf8_lt_iff {first second : String} : utf8 first < utf8 second ↔ first < second := by
  constructor
  · intro less
    apply Table.lt_of_not_lt_of_ne
    · intro greater
      exact List.lt_asymm less (utf8_lt_of_lt greater)
    · intro same
      subst same
      exact List.lt_irrefl _ less
  · exact utf8_lt_of_lt

end DecisionTree.Text
