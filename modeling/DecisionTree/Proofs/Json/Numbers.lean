import DecisionTree.Proofs.Json.Strings
import DecisionTree.Proofs.Number.Notation

namespace DecisionTree.Json

open DecisionTree.Decimal
open DecisionTree.Dyadic (gridValue)

variable {rule : NumberRule} {whole fraction rest : List Char} {power : Option ℤ} {d : Decimal}

/-- A number stands for the double nearest to what its digits say, however many there are. -/
def exactly : NumberRule := fun negative whole fraction power =>
  FiniteFloat.of?
    (nearest ⟨negative, valueOfDigits (whole ++ fraction), power - fraction.length⟩)

/-- No digit follows. -/
def NoDigit (rest : List Char) : Prop :=
  ∀ c ∈ rest.head?, c.isDigit = false

/-- Nothing follows that would belong to the number. -/
structure EndsNumber (rest : List Char) : Prop where
  digit : NoDigit rest
  point : ∀ c ∈ rest.head?, c ≠ '.'
  power : ∀ c ∈ rest.head?, ¬(c = 'e' ∨ c = 'E')

theorem endsNumber_nil : EndsNumber [] := by
  constructor <;> rintro c ⟨⟩

theorem endsNumber_cons {c : Char} (separator : c = ',' ∨ c = ']' ∨ c = '}') :
    EndsNumber (c :: rest) := by
  constructor <;> rintro d ⟨⟩ <;> rcases separator with rfl | rfl | rfl <;> decide

theorem spanDigits_append (digits : AllDigits whole) (stops : NoDigit rest) :
    spanDigits (whole ++ rest) = (whole, rest) := by
  have taken : rest.takeWhile Char.isDigit = [] := by
    cases rest with
    | nil => rfl
    | cons c rest => exact List.takeWhile_cons_of_neg (by simp [stops c rfl])
  have dropped : rest.dropWhile Char.isDigit = rest := by
    cases rest with
    | nil => rfl
    | cons c rest => exact List.dropWhile_cons_of_neg (by simp [stops c rfl])
  unfold spanDigits
  rw [List.takeWhile_append_of_pos digits, List.dropWhile_append_of_pos digits, taken, dropped,
    List.append_nil]

/-- The digits behind the point, which is left out without any. -/
def fractionText (fraction : List Char) : List Char :=
  if fraction = [] then [] else '.' :: fraction

def powerText : Option ℤ → List Char
  | none => []
  | some exponent => 'e' :: signedExponent exponent

structure Numeral where
  whole : List Char
  fraction : List Char
  power : Option ℤ
  nonempty : whole ≠ []
  digits : AllDigits whole
  places : AllDigits fraction
  /-- no zero stands in front of another digit -/
  leading : whole.head? = some '0' → whole = ['0']

namespace Numeral

variable (n : Numeral)

def text : List Char :=
  n.whole ++ (fractionText n.fraction ++ powerText n.power)

def value (negative : Bool) : Decimal :=
  ⟨negative, valueOfDigits (n.whole ++ n.fraction), n.power.getD 0 - n.fraction.length⟩

end Numeral

/-- Under the rule a numeral stands for the number. -/
def StandsFor (rule : NumberRule) (negative : Bool) (n : Numeral) (x : FiniteFloat) : Prop :=
  rule negative n.whole n.fraction (n.power.getD 0) = some x

private theorem readPower?_text (power : Option ℤ) (ends : EndsNumber rest) :
    readPower? (powerText power ++ rest) = some (power.getD 0, rest) := by
  cases power with
  | none =>
    cases rest with
    | nil => rfl
    | cons c rest => exact if_neg (ends.power c rfl)
  | some exponent =>
    have span := spanDigits_append (allDigits_toDigits exponent.natAbs) ends.digit
    have value := valueOfDigits_toDigits exponent.natAbs
    by_cases negative : exponent < 0
    · simp [powerText, signedExponent, readPower?, splitSign, span, value, negative,
        abs_of_neg negative]
    · simp [powerText, signedExponent, readPower?, splitSign, span, value, negative,
        Int.not_lt.mp negative]

private theorem noDigit_powerText (power : Option ℤ) (ends : EndsNumber rest) :
    NoDigit (powerText power ++ rest) ∧ ∀ c ∈ (powerText power ++ rest).head?, c ≠ '.' := by
  cases power with
  | none => exact ⟨ends.digit, ends.point⟩
  | some exponent => constructor <;> rintro c ⟨⟩ <;> decide

private theorem readFraction?_text (places : AllDigits fraction) (stops : NoDigit rest)
    (noPoint : ∀ c ∈ rest.head?, c ≠ '.') :
    readFraction? (fractionText fraction ++ rest) = some (fraction, rest) := by
  unfold fractionText
  split
  next none =>
    rw [none, List.nil_append]
    cases rest with
    | nil => rfl
    | cons c rest => exact readFraction?.eq_2 _ fun cs same => noPoint c rfl (List.cons.inj same).1
  next some =>
    simp [readFraction?, spanDigits_append places stops, some]

private theorem noDigit_fractionText (stops : NoDigit rest) :
    NoDigit (fractionText fraction ++ rest) := by
  unfold fractionText
  split
  next => exact stops
  next => rintro c ⟨⟩; rfl

private theorem readWhole?_text (n : Numeral) (stops : NoDigit rest) :
    readWhole? (n.whole ++ rest) = some (n.whole, rest) := by
  obtain ⟨first, others, form⟩ := List.exists_cons_of_ne_nil n.nonempty
  by_cases zero : first = '0'
  · rw [n.leading (by rw [form, zero]; rfl)]
    rfl
  · have notZero (cs : List Char) (same : n.whole ++ rest = '0' :: cs) : False := by
      rw [form] at same
      exact zero (List.cons.inj same).1
    rw [readWhole?.eq_2 _ notZero, spanDigits_append n.digits stops]
    simp [n.nonempty]

/-- A numeral is read to the number it stands for. -/
theorem readMagnitude?_text {negative : Bool} {n : Numeral} {x : FiniteFloat}
    (stands : StandsFor rule negative n x) (ends : EndsNumber rest) :
    readMagnitude? rule negative (n.text ++ rest) = some (.number x, rest) := by
  obtain ⟨stops, noPoint⟩ := noDigit_powerText n.power ends
  unfold readMagnitude? Numeral.text
  rw [List.append_assoc, List.append_assoc, readWhole?_text n (noDigit_fractionText stops)]
  simp only [Option.bind_eq_bind, Option.bind_some]
  rw [readFraction?_text n.places stops noPoint]
  simp only [Option.bind_some]
  rw [readPower?_text n.power ends]
  simp only [Option.bind_some]
  rw [stands]
  rfl

/-- A signed numeral is read to the number it stands for. -/
theorem readNumber?_signed {negative : Bool} {n : Numeral} {x : FiniteFloat}
    (stands : StandsFor rule negative n x) (ends : EndsNumber rest) :
    readNumber? rule (signed negative n.text ++ rest) = some (.number x, rest) := by
  cases negative with
  | true => exact readMagnitude?_text stands ends
  | false =>
    obtain ⟨first, others, form⟩ := List.exists_cons_of_ne_nil n.nonempty
    have notMinus (cs : List Char) (same : n.text ++ rest = '-' :: cs) : False := by
      have digit := n.digits first (by rw [form]; exact List.mem_cons_self)
      rw [Numeral.text, form] at same
      rw [(List.cons.inj same).1] at digit
      cases digit
    exact (readNumber?.eq_2 _ _ notMinus).trans (readMagnitude?_text stands ends)

/-- The decimal that the text of another one says by its digits. -/
def reread (d : Decimal) : Decimal :=
  if d.digits = 0 then ⟨d.negative, 0, -1⟩
  else if 0 ≤ d.exponent ∧ (Nat.toDigits 10 d.digits).length + d.exponent ≤ 16 then
    ⟨d.negative, 10 ^ (d.exponent.toNat + 1) * d.digits, -1⟩
  else d

private theorem negative_reread (d : Decimal) : (reread d).negative = d.negative := by
  unfold reread
  split_ifs <;> rfl

private theorem gridValue_reread (d : Decimal) :
    gridValue (reread d).digits (reread d).exponent = gridValue d.digits d.exponent := by
  unfold reread
  split_ifs with zero whole
  · simp [gridValue, zero]
  · obtain ⟨shift, same⟩ := Int.eq_ofNat_of_zero_le whole.1
    rw [same]
    unfold gridValue
    push_cast
    simp [pow_succ]
    ring
  · rfl

/-- A finite number is nearest to what its text says. -/
theorem nearest_reread {tie : Tie} {x : Float} (finite : x.isFinite = true) :
    (reread (Decimal.ofFloat tie x)).nearest = x :=
  Number.nearest_of_shortest finite (negative_reread _) (gridValue_reread _)

/-- The digits of a positive number do not begin with a zero. -/
theorem head?_toDigits {n : ℕ} (positive : 0 < n) : (Nat.toDigits 10 n).head? ≠ some '0' := by
  induction n using Nat.strongRecOn with
  | ind n ih =>
    by_cases small : n < 10
    · rw [Nat.toDigits_of_lt_base small]
      simp [positive.ne']
    · have later := ih (n / 10) (by omega) (by omega)
      rw [Nat.toDigits_of_base_le (by norm_num) (by omega), List.head?_append_of_ne_nil _
        Nat.toDigits_ne_nil]
      exact later

structure DigitsOf (d : Decimal) (cs : List Char) : Prop where
  nonzero : d.digits ≠ 0
  form : Nat.toDigits 10 d.digits = cs

namespace DigitsOf

variable {cs : List Char} (digits : DigitsOf d cs)

include digits

theorem all : AllDigits cs :=
  digits.form ▸ allDigits_toDigits d.digits

theorem value : valueOfDigits cs = d.digits :=
  digits.form ▸ valueOfDigits_toDigits d.digits

theorem ne_nil : cs ≠ [] :=
  digits.form ▸ Nat.toDigits_ne_nil

theorem length_pos : 0 < cs.length :=
  List.length_pos_iff.mpr digits.ne_nil

theorem head? : cs.head? ≠ some '0' :=
  digits.form ▸ head?_toDigits (Nat.pos_of_ne_zero digits.nonzero)

end DigitsOf

/-- A numeral that the text of a decimal consists of behind its sign. -/
structure Numeral.Spells (n : Numeral) (d : Decimal) : Prop where
  text : d.scientific = signed d.negative n.text
  value : n.value d.negative = reread d

section Ranges

variable {cs : List Char}

theorem spells_zero (zero : d.digits = 0) : ∃ n : Numeral, n.Spells d := by
  have digits : AllDigits ['0'] := allDigits_replicate 1
  refine ⟨⟨['0'], ['0'], none, by simp, digits, digits, fun _ => rfl⟩, ?_, ?_⟩
  · simp [scientific, zero, Numeral.text, fractionText, powerText]
  · simp [Numeral.value, reread, zero, valueOfDigits]

/-- Between its bounds scientific notation is positional, with at least one place. -/
theorem scientific_eq_positional (digits : DigitsOf d cs) (near : -5 < cs.length + d.exponent)
    (narrow : cs.length + d.exponent ≤ 16) :
    d.scientific = signed d.negative
      (if 0 ≤ d.exponent then positional cs (cs.length + d.exponent) ++ ['.', '0']
        else positional cs (cs.length + d.exponent)) := by
  have places : (cs.length : ℤ) ≤ cs.length + d.exponent ↔ 0 ≤ d.exponent := by omega
  simp only [scientific, digits.form, places]
  rw [if_neg digits.nonzero, if_pos ⟨near, narrow⟩]

/-- Zeros fill a whole number up to its point, and one more stands behind it. -/
theorem spells_whole (digits : DigitsOf d cs) (whole : 0 ≤ d.exponent)
    (narrow : cs.length + d.exponent ≤ 16) : ∃ n : Numeral, n.Spells d := by
  have length := digits.length_pos
  have all := digits.all.append (allDigits_replicate d.exponent.toNat)
  have leading : (cs ++ List.replicate d.exponent.toNat '0').head? ≠ some '0' := by
    rw [List.head?_append_of_ne_nil _ digits.ne_nil]
    exact digits.head?
  refine ⟨⟨cs ++ List.replicate d.exponent.toNat '0', ['0'], none, by simp [digits.ne_nil], all,
    allDigits_replicate 1, fun zero => absurd zero leading⟩, ?_, ?_⟩
  · have count : (cs.length + d.exponent).toNat - cs.length = d.exponent.toNat := by omega
    rw [scientific_eq_positional digits (by omega) narrow, if_pos whole, positional,
      if_neg (by omega), if_pos (by omega), count]
    simp [Numeral.text, fractionText, powerText]
  · have value : valueOfDigits (cs ++ List.replicate d.exponent.toNat '0' ++ ['0']) =
        10 ^ (d.exponent.toNat + 1) * d.digits := by
      rw [List.append_assoc, ← List.replicate_succ', valueOfDigits_append_zeros, digits.value]
    simp only [Numeral.value, value, reread, digits.form]
    rw [if_neg digits.nonzero, if_pos ⟨whole, narrow⟩]
    rfl

/-- Without a zero behind the point the digits are read as they are. -/
theorem reread_of_digits (digits : DigitsOf d cs)
    (other : ¬(0 ≤ d.exponent ∧ cs.length + d.exponent ≤ 16)) : reread d = d := by
  simp only [reread, digits.form]
  rw [if_neg digits.nonzero, if_neg other]

/-- Zeros stand between the point and the digits of a small number. -/
theorem spells_small (digits : DigitsOf d cs) (low : cs.length + d.exponent ≤ 0)
    (near : -5 < cs.length + d.exponent) : ∃ n : Numeral, n.Spells d := by
  have length := digits.length_pos
  have zeros := allDigits_replicate (-(cs.length + d.exponent)).toNat
  refine ⟨⟨['0'], List.replicate (-(cs.length + d.exponent)).toNat '0' ++ cs, none, by simp,
    allDigits_replicate 1, zeros.append digits.all, fun _ => rfl⟩, ?_, ?_⟩
  · rw [scientific_eq_positional digits near (by omega), if_neg (by omega), positional, if_pos low]
    simp [Numeral.text, fractionText, powerText, digits.ne_nil]
  · have value : valueOfDigits (['0'] ++
        (List.replicate (-(cs.length + d.exponent)).toNat '0' ++ cs)) = d.digits := by
      rw [← List.replicate_one, valueOfDigits_zeros_append, valueOfDigits_zeros_append,
        digits.value]
    have power : 0 - ((List.replicate (-(cs.length + d.exponent)).toNat '0' ++ cs).length : ℤ) =
        d.exponent := by
      rw [List.length_append, List.length_replicate]
      omega
    rw [reread_of_digits digits (by omega), Numeral.value, value, Option.getD_none, power]

/-- The point stands among the digits. -/
theorem spells_within (digits : DigitsOf d cs) (fractional : d.exponent < 0)
    (high : 0 < cs.length + d.exponent) (narrow : cs.length + d.exponent ≤ 16) :
    ∃ n : Numeral, n.Spells d := by
  obtain ⟨place, same⟩ : ∃ place : ℕ, cs.length + d.exponent = place :=
    Int.eq_ofNat_of_zero_le high.le
  have front : AllDigits (cs.take place) := fun c member =>
    digits.all c (List.mem_of_mem_take member)
  have back : AllDigits (cs.drop place) := fun c member =>
    digits.all c (List.mem_of_mem_drop member)
  have leading : (cs.take place).head? ≠ some '0' := by
    rw [List.head?_take, if_neg (by omega)]
    exact digits.head?
  have frontSome : cs.take place ≠ [] := by
    rw [ne_eq, List.take_eq_nil_iff, not_or]
    exact ⟨by omega, digits.ne_nil⟩
  have backSome : cs.drop place ≠ [] := by
    rw [ne_eq, List.drop_eq_nil_iff]
    omega
  refine ⟨⟨cs.take place, cs.drop place, none, frontSome, front, back,
    fun zero => absurd zero leading⟩, ?_, ?_⟩
  · rw [scientific_eq_positional digits (by omega) narrow, if_neg (by omega), same, positional,
      if_neg (by omega), if_neg (by omega)]
    simp [Numeral.text, fractionText, powerText, backSome]
  · have power : 0 - ((cs.drop place).length : ℤ) = d.exponent := by
      rw [List.length_drop]
      omega
    rw [reread_of_digits digits (by omega), Numeral.value, List.take_append_drop, digits.value,
      Option.getD_none, power]

/-- The point stands behind the first digit, and the power of ten is written. -/
theorem spells_scaled (digits : DigitsOf d cs)
    (far : ¬(-5 < cs.length + d.exponent ∧ cs.length + d.exponent ≤ 16)) :
    ∃ n : Numeral, n.Spells d := by
  obtain ⟨first, others, rfl⟩ := List.exists_cons_of_ne_nil digits.ne_nil
  have front : AllDigits [first] := List.forall_mem_singleton.mpr (digits.all first (by simp))
  have back : AllDigits others := fun c member => digits.all c (List.mem_cons_of_mem _ member)
  refine ⟨⟨[first], others, some ((first :: others).length + d.exponent - 1), by simp, front, back,
    ?_⟩, ?_, ?_⟩
  · rintro ⟨⟩
    rfl
  · simp only [scientific, digits.form]
    rw [if_neg digits.nonzero, if_neg far]
    cases others <;> simp [Numeral.text, fractionText, powerText]
  · have length := digits.length_pos
    have value : valueOfDigits ([first] ++ others) = d.digits := digits.value
    have power : ((first :: others).length : ℤ) + d.exponent - 1 - others.length = d.exponent := by
      rw [List.length_cons]
      omega
    rw [reread_of_digits digits (by omega), Numeral.value, value, Option.getD_some, power]

end Ranges

/-- The text of a decimal is a numeral behind its sign. -/
theorem exists_spells (d : Decimal) : ∃ n : Numeral, n.Spells d := by
  by_cases zero : d.digits = 0
  · exact spells_zero zero
  have digits : DigitsOf d (Nat.toDigits 10 d.digits) := ⟨zero, rfl⟩
  by_cases near : -5 < (Nat.toDigits 10 d.digits).length + d.exponent ∧
      (Nat.toDigits 10 d.digits).length + d.exponent ≤ 16
  · by_cases whole : 0 ≤ d.exponent
    · exact spells_whole digits whole near.2
    · by_cases low : (Nat.toDigits 10 d.digits).length + d.exponent ≤ 0
      · exact spells_small digits low near.1
      · exact spells_within digits (by omega) (by omega) near.2
  · exact spells_scaled digits near

/-- Under the rule the text of a number stands for the number itself. -/
def KeepsNumber (rule : NumberRule) (x : FiniteFloat) : Prop :=
  ∀ n : Numeral, n.Spells (Decimal.ofFloat .even x.val) →
    StandsFor rule (Decimal.ofFloat .even x.val).negative n x

/-- The text of a number that the rule keeps is read to the number. -/
theorem readNumber?_scientific {x : FiniteFloat} (keeps : KeepsNumber rule x)
    (ends : EndsNumber rest) :
    readNumber? rule ((Decimal.ofFloat .even x.val).scientific ++ rest) =
      some (.number x, rest) := by
  obtain ⟨n, spells⟩ := exists_spells (Decimal.ofFloat .even x.val)
  rw [spells.text]
  exact readNumber?_signed (keeps n spells) ends

/-- By all of its digits every number is kept. -/
theorem keepsNumber_exactly (x : FiniteFloat) : KeepsNumber exactly x := by
  intro n spells
  have same : (n.value (Decimal.ofFloat .even x.val).negative).nearest = x.val := by
    rw [spells.value]
    exact nearest_reread x.property
  have kept := FiniteFloat.of?_val x
  rw [← same] at kept
  exact kept

/-- The text of a decimal begins with a minus or a digit. -/
theorem scientific_eq_cons (d : Decimal) :
    ∃ c cs, d.scientific = c :: cs ∧ (c = '-' ∨ c.isDigit = true) := by
  obtain ⟨n, spells⟩ := exists_spells d
  obtain ⟨first, others, form⟩ := List.exists_cons_of_ne_nil n.nonempty
  have digit := n.digits first (by rw [form]; exact List.mem_cons_self)
  rw [spells.text, Numeral.text, form]
  cases d.negative with
  | true => exact ⟨'-', _, rfl, .inl rfl⟩
  | false => exact ⟨first, _, rfl, .inr digit⟩

theorem printable_of_allDigits (digits : AllDigits whole) : Printable whole := by
  intro c member
  have digit := digits c member
  rw [Char.isDigit, Bool.and_eq_true, decide_eq_true_iff] at digit
  exact le_trans (by decide) (UInt32.le_iff_toNat_le.mp digit.1)

theorem printable_fractionText (places : AllDigits fraction) :
    Printable (fractionText fraction) := by
  by_cases none : fraction = []
  · rw [fractionText, if_pos none]
    exact .nil
  · rw [fractionText, if_neg none]
    exact .cons (by decide) (printable_of_allDigits places)

theorem printable_powerText : Printable (powerText power) := by
  cases power with
  | none => exact .nil
  | some exponent =>
    have sign : 0x20 ≤ (if exponent < 0 then '-' else '+').toNat := by split <;> decide
    have digits := printable_of_allDigits (allDigits_toDigits exponent.natAbs)
    exact .cons (by decide) (.cons sign digits)

/-- Numbers are printable. -/
theorem printable_scientific (d : Decimal) : Printable d.scientific := by
  obtain ⟨n, spells⟩ := exists_spells d
  have text : Printable n.text :=
    (printable_of_allDigits n.digits).append
      ((printable_fractionText n.places).append printable_powerText)
  rw [spells.text]
  cases d.negative with
  | true => exact .cons (by decide) text
  | false => exact text

end DecisionTree.Json
