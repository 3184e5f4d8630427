import DecisionTree.Decimal.Notation
import DecisionTree.Number
import DecisionTree.Proofs.Number.Shortest
import DecisionTree.Proofs.Text.Keyword
import Mathlib.Data.List.TakeWhile

namespace DecisionTree.Decimal

open DecisionTree.Dyadic (gridValue)

variable {negative : Bool} {whole fraction digits rest : List Char} {n : ℕ}

def AllDigits (cs : List Char) : Prop :=
  ∀ c ∈ cs, c.isDigit = true

theorem allDigits_toDigits (n : ℕ) : AllDigits (Nat.toDigits 10 n) :=
  fun _ member => Nat.isDigit_of_mem_toDigits (by norm_num) (by norm_num) member

theorem allDigits_replicate (n : ℕ) : AllDigits (List.replicate n '0') := by
  intro c member
  rw [List.eq_of_mem_replicate member]
  rfl

theorem AllDigits.append (front : AllDigits whole) (back : AllDigits fraction) :
    AllDigits (whole ++ fraction) :=
  fun c member => (List.mem_append.mp member).elim (front c) (back c)

theorem valueOfDigits_eq (cs : List Char) : valueOfDigits cs = Nat.ofDigitChars 10 cs 0 := rfl

theorem valueOfDigits_toDigits (n : ℕ) : valueOfDigits (Nat.toDigits 10 n) = n :=
  Nat.ofDigitChars_ten_toDigits

theorem valueOfDigits_zeros_append (count : ℕ) (cs : List Char) :
    valueOfDigits (List.replicate count '0' ++ cs) = valueOfDigits cs := by
  simp only [valueOfDigits_eq, Nat.ofDigitChars_append, Nat.ofDigitChars_replicate_zero,
    Nat.mul_zero]

theorem valueOfDigits_append_zeros (cs : List Char) (count : ℕ) :
    valueOfDigits (cs ++ List.replicate count '0') = 10 ^ count * valueOfDigits cs := by
  simp only [valueOfDigits_eq, Nat.ofDigitChars_append, Nat.ofDigitChars_replicate_zero]

theorem readUnsigned?_whole (negative : Bool) (some : whole ≠ []) (digits : AllDigits whole) :
    readUnsigned? negative whole = .some ⟨negative, valueOfDigits whole, 0⟩ := by
  have taken : whole.takeWhile Char.isDigit = whole := List.takeWhile_eq_self_iff.mpr digits
  have dropped : whole.dropWhile Char.isDigit = [] := List.dropWhile_eq_nil_iff.mpr digits
  simp [readUnsigned?, splitFraction, readExponent?, taken, dropped, some]

theorem readUnsigned?_point (negative : Bool) (some : whole ≠ []) (digits : AllDigits whole)
    (places : AllDigits fraction) :
    readUnsigned? negative (whole ++ '.' :: fraction) =
      .some ⟨negative, valueOfDigits (whole ++ fraction), -fraction.length⟩ := by
  have taken : (whole ++ '.' :: fraction).takeWhile Char.isDigit = whole := by
    rw [List.takeWhile_append_of_pos digits]
    simp
  have dropped : (whole ++ '.' :: fraction).dropWhile Char.isDigit = '.' :: fraction := by
    rw [List.dropWhile_append_of_pos digits]
    simp
  have fractionTaken : fraction.takeWhile Char.isDigit = fraction :=
    List.takeWhile_eq_self_iff.mpr places
  have fractionDropped : fraction.dropWhile Char.isDigit = [] :=
    List.dropWhile_eq_nil_iff.mpr places
  simp [readUnsigned?, splitFraction, readExponent?, taken, dropped, fractionTaken, fractionDropped,
    some]

/-- Zeros in front of the digits fill the places down to theirs. -/
theorem readUnsigned?_small (negative : Bool) (all : AllDigits digits) (zeros : ℕ) :
    readUnsigned? negative ('0' :: '.' :: (List.replicate zeros '0' ++ digits)) =
      .some ⟨negative, valueOfDigits digits, -(zeros + digits.length : ℕ)⟩ := by
  have read := readUnsigned?_point negative (List.cons_ne_nil '0' []) (allDigits_replicate 1)
    ((allDigits_replicate zeros).append all)
  rw [← List.replicate_one, valueOfDigits_zeros_append, valueOfDigits_zeros_append,
    List.length_append, List.length_replicate] at read
  exact read

private theorem readUnsigned?_wide (negative : Bool) (some : digits ≠ []) (all : AllDigits digits)
    (zeros : ℕ) :
    readUnsigned? negative (digits ++ List.replicate zeros '0') =
      .some ⟨negative, 10 ^ zeros * valueOfDigits digits, 0⟩ := by
  rw [readUnsigned?_whole negative (by simp [some]) (all.append (allDigits_replicate _)),
    valueOfDigits_append_zeros]

private theorem readUnsigned?_within (negative : Bool) (all : AllDigits digits) {places : ℕ}
    (some : 0 < places) (within : places < digits.length) :
    readUnsigned? negative (digits.take places ++ '.' :: digits.drop places) =
      .some ⟨negative, valueOfDigits digits, -(digits.length - places : ℕ)⟩ := by
  have front : AllDigits (digits.take places) := fun c member => all c (List.mem_of_mem_take member)
  have back : AllDigits (digits.drop places) := fun c member => all c (List.mem_of_mem_drop member)
  have nonempty : digits.take places ≠ [] := by
    rw [ne_eq, List.take_eq_nil_iff]
    rintro (none | rfl)
    · omega
    · cases within
  rw [readUnsigned?_point negative nonempty front back, List.take_append_drop, List.length_drop]

/-- Positional text is read to a decimal of the same value. -/
theorem readUnsigned?_positional (negative : Bool) (some : digits ≠ []) (all : AllDigits digits)
    (exponent : ℤ) :
    ∃ d, readUnsigned? negative (positional digits (digits.length + exponent)) = .some d ∧
      d.negative = negative ∧
      gridValue d.digits d.exponent = gridValue (valueOfDigits digits) exponent := by
  have length : 0 < digits.length := List.length_pos_iff.mpr some
  unfold positional
  split
  next small =>
    have places : -((-(digits.length + exponent)).toNat + digits.length : ℕ) = exponent := by omega
    refine ⟨_, readUnsigned?_small negative all _, rfl, ?_⟩
    dsimp only
    rw [places]
  next large =>
    split
    next wide =>
      have zeros : (digits.length + exponent).toNat - digits.length = exponent.toNat := by omega
      obtain ⟨shift, rfl⟩ := Int.eq_ofNat_of_zero_le (show 0 ≤ exponent by omega)
      refine ⟨_, readUnsigned?_wide negative some all _, rfl, ?_⟩
      rw [zeros]
      unfold gridValue
      push_cast
      simp
      ring
    next within =>
      have places : -(digits.length - (digits.length + exponent).toNat : ℕ) = exponent := by omega
      refine ⟨_, readUnsigned?_within negative all (by omega) (by omega), rfl, ?_⟩
      dsimp only
      rw [places]

private theorem splitSign_signed {c : Char} (digit : c.isDigit = true) :
    splitSign (signed negative (c :: rest)) = (negative, c :: rest) := by
  cases negative
  · have notMinus : c ≠ '-' := by rintro rfl; cases digit
    have notPlus : c ≠ '+' := by rintro rfl; cases digit
    simp [signed, splitSign, notMinus, notPlus]
  · rfl

private theorem positional_eq_cons (some : digits ≠ []) (all : AllDigits digits) (point : ℤ) :
    ∃ c rest, positional digits point = c :: rest ∧ c.isDigit = true := by
  obtain ⟨first, others, rfl⟩ := List.exists_cons_of_ne_nil some
  have digit := all first List.mem_cons_self
  unfold positional
  split
  next => exact ⟨'0', _, rfl, rfl⟩
  next large =>
    split
    next => exact ⟨first, _, rfl, digit⟩
    next =>
      obtain ⟨count, positive⟩ : ∃ count, point.toNat = count + 1 :=
        Nat.exists_eq_add_one.mpr (by omega)
      rw [positive]
      exact ⟨first, _, rfl, digit⟩

private theorem mem_positional (all : AllDigits digits) {point : ℤ} {c : Char}
    (member : c ∈ positional digits point) : c.isDigit = true ∨ c = '.' := by
  have zeros (count : ℕ) (zero : c ∈ List.replicate count '0') : c.isDigit = true :=
    allDigits_replicate count c zero
  unfold positional at member
  split at member
  next =>
    simp only [List.mem_cons, List.mem_append] at member
    rcases member with rfl | rfl | zero | inside
    · exact .inl rfl
    · exact .inr rfl
    · exact .inl (zeros _ zero)
    · exact .inl (all c inside)
  next =>
    split at member
    next =>
      rcases List.mem_append.mp member with inside | zero
      · exact .inl (all c inside)
      · exact .inl (zeros _ zero)
    next =>
      simp only [List.mem_cons, List.mem_append] at member
      rcases member with front | rfl | back
      · exact .inl (all c (List.mem_of_mem_take front))
      · exact .inr rfl
      · exact .inl (all c (List.mem_of_mem_drop back))

/-- Plain text is read to a decimal of the same sign and value. -/
theorem read?_plain (d : Decimal) :
    ∃ e, read? d.plain = some e ∧ e.negative = d.negative ∧
      gridValue e.digits e.exponent = gridValue d.digits d.exponent := by
  unfold plain
  dsimp only
  split
  next zero =>
    refine ⟨⟨d.negative, 0, 0⟩, ?_, rfl, by simp [gridValue, zero]⟩
    unfold read?
    rw [splitSign_signed rfl]
    exact readUnsigned?_whole _ (List.cons_ne_nil '0' []) (allDigits_replicate 1)
  next =>
    have all := allDigits_toDigits d.digits
    obtain ⟨c, rest, text, digit⟩ := positional_eq_cons Nat.toDigits_ne_nil all
      ((Nat.toDigits 10 d.digits).length + d.exponent)
    obtain ⟨e, parsed, sign, value⟩ := readUnsigned?_positional d.negative
      Nat.toDigits_ne_nil all d.exponent
    rw [valueOfDigits_toDigits] at value
    refine ⟨e, ?_, sign, value⟩
    unfold read?
    rw [text, splitSign_signed digit, ← text]
    exact parsed

/-- Plain text is made of digits, points and signs. -/
theorem mem_plain {d : Decimal} {c : Char} (member : c ∈ d.plain) :
    c.isDigit = true ∨ c = '.' ∨ c = '-' := by
  have signed (text : List Char) (inside : c ∈ signed d.negative text) : c = '-' ∨ c ∈ text := by
    unfold Decimal.signed at inside
    split at inside
    · exact List.mem_cons.mp inside
    · exact .inr inside
  rcases signed _ member with rfl | inside
  · exact .inr (.inr rfl)
  · split at inside
    next =>
      rw [List.mem_singleton.mp inside]
      exact .inl rfl
    next => exact (mem_positional (allDigits_toDigits d.digits) inside).imp_right .inl

end DecisionTree.Decimal

namespace DecisionTree.Number

open DecisionTree.Dyadic (gridValue)

variable {x : Float}

theorem display_of_isFinite (finite : x.isFinite = true) :
    display x = String.ofList (Decimal.ofFloat .up x).plain := by
  have number : x.isNaN = false ∧ x.isInf = false := by
    change x.toModel.unpack.isNaN = false ∧ x.toModel.unpack.isInf = false
    change x.toModel.unpack.isFinite = true at finite
    cases unpacked : x.toModel.unpack with
    | notANumber | infinity => rw [unpacked] at finite; cases finite
    | zero | finite => exact ⟨rfl, rfl⟩
  unfold display
  rw [number.1, number.2]
  rfl

/-- A finite number is displayed with digits, points and signs. -/
theorem mem_display {c : Char} (finite : x.isFinite = true) (member : c ∈ (display x).toList) :
    c.isDigit = true ∨ c = '.' ∨ c = '-' := by
  rw [display_of_isFinite finite, String.toList_ofList] at member
  exact Decimal.mem_plain member

theorem not_mem_display {c : Char} (finite : x.isFinite = true) (digit : c.isDigit = false)
    (point : c ≠ '.') (sign : c ≠ '-') : c ∉ (display x).toList := by
  intro member
  rcases mem_display finite member with other | rfl | rfl
  · exact Bool.false_ne_true (digit.symm.trans other)
  · exact point rfl
  · exact sign rfl

theorem trimmed_display (finite : x.isFinite = true) :
    Text.trimmed (display x).toList = (display x).toList := by
  apply Text.trimmed_of_solid
  intro c member
  rcases mem_display finite member with digit | rfl | rfl
  · exact Text.isBlank_of_isDigit digit
  · rfl
  · rfl

/-- Outside of it there are no blanks. -/
theorem trim_display (finite : x.isFinite = true) : Text.trim (display x) = display x := by
  rw [Text.trim, trimmed_display finite, String.ofList_toList]

/-- A decimal of the sign and value of the shortest one of a finite number is nearest to it. -/
theorem nearest_of_shortest {tie : Tie} {e : Decimal} (finite : x.isFinite = true)
    (sign : e.negative = (Decimal.ofFloat tie x).negative)
    (value : gridValue e.digits e.exponent =
      gridValue (Decimal.ofFloat tie x).digits (Decimal.ofFloat tie x).exponent) :
    e.nearest = x := by
  have bound := isFinite_iff.mp finite
  have bits : (Decimal.ofFloat tie x).negative = decide (x.toBits.toNat ≥ Nat.pow 2 63) := by
    unfold Decimal.ofFloat
    dsimp only
    split <;> rfl
  have magnitude : e.magnitudeBits = Dyadic.magnitude x := by
    unfold Decimal.ofFloat at value
    dsimp only at value
    split at value
    next zero =>
      have digits : e.digits = 0 := by
        simpa [gridValue, zpow_ne_zero] using value
      rw [zero]
      exact if_pos digits
    next some =>
      refine Decimal.magnitudeBits_of_covers (Nat.pos_of_ne_zero some) bound ?_
      rw [value]
      exact Dyadic.covers_shortest (Dyadic.mantissa_pos_of_magnitude (Nat.pos_of_ne_zero some))
  unfold Decimal.nearest
  rw [magnitude, sign, bits, floatOfBits_magnitude]

/-- The text of a finite number reads back to it. -/
theorem read?_display (finite : x.isFinite = true) : read? (display x) = some x := by
  obtain ⟨e, parsed, sign, value⟩ := Decimal.read?_plain (Decimal.ofFloat .up x)
  unfold read?
  rw [display_of_isFinite finite, String.toList_ofList, parsed]
  exact congrArg some (nearest_of_shortest finite sign value)

end DecisionTree.Number
