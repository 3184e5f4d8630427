import DecisionTree.Proofs.Json.Numbers
import DecisionTree.Proofs.Json.Strings

/-!
Values read back. The text of a value is read to the same value under a rule that keeps the numbers
in it, as long as its containers nest no deeper than the reader follows them; every call of the
readers takes away a character, so the length of the text is fuel enough.
-/

namespace DecisionTree.Json

variable {rule : NumberRule} {fuel room : ℕ} {c : Char} {cs rest : List Char}

/-- What holds of a value whenever it does of all values in it holds of every value. -/
@[elab_as_elim]
theorem induction {motive : Json → Prop} (null : motive .null)
    (bool : ∀ holds, motive (.bool holds)) (number : ∀ value, motive (.number value))
    (string : ∀ content, motive (.string content))
    (array : ∀ items, (∀ item ∈ items, motive item) → motive (.array items))
    (object : ∀ members, (∀ member ∈ members, motive member.2) → motive (.object members))
    (value : Json) : motive value :=
  @Json.rec motive (fun items => ∀ item ∈ items, motive item)
    (fun members => ∀ member ∈ members, motive member.2) (fun member => motive member.2)
    null bool number string array object
    (fun _ absent => nomatch absent) (fun _ _ head tail => List.forall_mem_cons.mpr ⟨head, tail⟩)
    (fun _ absent => nomatch absent) (fun _ _ head tail => List.forall_mem_cons.mpr ⟨head, tail⟩)
    (fun _ _ second => second) value

mutual

/-- Levels of containers inside one another. -/
def levels : Json → ℕ
  | .array items => levelsOfItems items + 1
  | .object members => levelsOfMembers members + 1
  | _ => 0

def levelsOfItems : List Json → ℕ
  | [] => 0
  | item :: rest => max (levels item) (levelsOfItems rest)

def levelsOfMembers : List (String × Json) → ℕ
  | [] => 0
  | (_, value) :: rest => max (levels value) (levelsOfMembers rest)

end

theorem levels_ofFloat (x : Float) : levels (ofFloat x) = 0 := by
  rw [ofFloat]
  split <;> rfl

theorem levelsOfItems_le {items : List Json} {most : ℕ} (each : ∀ item ∈ items, levels item ≤ most) :
    levelsOfItems items ≤ most := by
  induction items with
  | nil => exact Nat.zero_le most
  | cons item items ih =>
    obtain ⟨first, others⟩ := List.forall_mem_cons.mp each
    exact Nat.max_le.mpr ⟨first, ih others⟩

private theorem levelsOfMembers_le {members : List (String × Json)} {most : ℕ}
    (each : ∀ member ∈ members, levels member.2 ≤ most) : levelsOfMembers members ≤ most := by
  induction members with
  | nil => exact Nat.zero_le most
  | cons member members ih =>
    obtain ⟨first, others⟩ := List.forall_mem_cons.mp each
    exact Nat.max_le.mpr ⟨first, ih others⟩

theorem quoted_append (content rest : List Char) :
    quoted content ++ rest = '"' :: (content.flatMap escaped ++ '"' :: rest) := by
  simp [quoted]

theorem skipSpace_cons (token : isSpace c = false) : skipSpace (c :: cs) = c :: cs :=
  List.dropWhile_cons_of_neg (by simp [token])

theorem ne_of_start {d : Char} (start : c = '-' ∨ c.isDigit = true) (minus : d ≠ '-')
    (digit : d.isDigit = false) : c ≠ d := by
  rintro rfl
  rcases start with same | same
  · exact minus same
  · exact Bool.false_ne_true (digit.symm.trans same)

theorem isSpace_of_start (start : c = '-' ∨ c.isDigit = true) : isSpace c = false := by
  have space := ne_of_start (d := ' ') start (by decide) (by decide)
  have tab := ne_of_start (d := '\t') start (by decide) (by decide)
  have line := ne_of_start (d := '\n') start (by decide) (by decide)
  have feed := ne_of_start (d := '\r') start (by decide) (by decide)
  simp [isSpace, space, tab, line, feed]

/-- A text begins with a character that is neither a space nor a closing bracket. -/
theorem write_eq_cons (value : Json) :
    ∃ c cs, write value = c :: cs ∧ isSpace c = false ∧ c ≠ ']' := by
  cases value with
  | null => exact ⟨'n', _, rfl, rfl, by decide⟩
  | bool holds =>
    cases holds with
    | true => exact ⟨'t', _, rfl, rfl, by decide⟩
    | false => exact ⟨'f', _, rfl, rfl, by decide⟩
  | number value =>
    obtain ⟨c, cs, form, start⟩ := scientific_eq_cons (Decimal.ofFloat .even value.val)
    exact ⟨c, cs, form, isSpace_of_start start, ne_of_start start (by decide) (by decide)⟩
  | string content => exact ⟨'"', _, rfl, rfl, by decide⟩
  | array items => exact ⟨'[', _, rfl, rfl, by decide⟩
  | object members => exact ⟨'{', _, rfl, rfl, by decide⟩

theorem writeItems_next (item next : Json) (items : List Json) :
    writeItems (item :: next :: items) = item.write ++ ',' :: writeItems (next :: items) := by
  rfl

theorem writeMembers_next (name : String) (value : Json) (next : String × Json)
    (members : List (String × Json)) :
    writeMembers ((name, value) :: next :: members) =
      quoted name.toList ++ ':' :: (value.write ++ ',' :: writeMembers (next :: members)) := by
  change quoted name.toList ++ ':' :: value.write ++ _ = _
  rw [List.append_assoc]
  rfl

theorem writeMembers_last (name : String) (value : Json) :
    writeMembers [(name, value)] = quoted name.toList ++ ':' :: (value.write ++ ['}']) := by
  change quoted name.toList ++ ':' :: value.write ++ _ = _
  rw [List.append_assoc]
  rfl

theorem writeItems_eq_cons (item : Json) (items : List Json) :
    ∃ c cs, writeItems (item :: items) = c :: cs ∧ isSpace c = false ∧ c ≠ ']' := by
  obtain ⟨c, cs, form, start⟩ := write_eq_cons item
  cases items with
  | nil => exact ⟨c, cs ++ [']'], by rw [writeItems, form]; rfl, start⟩
  | cons next others =>
    exact ⟨c, cs ++ ',' :: writeItems (next :: others), by rw [writeItems_next, form]; rfl, start⟩

theorem writeMembers_eq_cons (name : String) (value : Json) (members : List (String × Json)) :
    ∃ cs, writeMembers ((name, value) :: members) = '"' :: cs := by
  cases members with
  | nil => exact ⟨_, rfl⟩
  | cons => exact ⟨_, rfl⟩

/-- Behind a minus or a digit stands a number. -/
theorem readValue?_number (start : c = '-' ∨ c.isDigit = true) :
    readValue? rule (fuel + 1) room (c :: cs) = readNumber? rule (c :: cs) := by
  rw [readValue?, skipSpace_cons (isSpace_of_start start)]
  split
  case h_7 => rfl
  all_goals
    next same =>
      exact absurd (List.cons.inj same).1 (ne_of_start start (by decide) (by decide))

private theorem readValue?_string :
    readValue? rule (fuel + 1) room ('"' :: cs) =
      (readString? cs).map fun (content, after) => (.string content, after) := by
  rfl

private theorem readValue?_array (token : isSpace c = false) (item : c ≠ ']') :
    readValue? rule (fuel + 1) (room + 1) ('[' :: c :: cs) =
      (readItems? rule fuel room (c :: cs)).map fun (items, after) => (.array items, after) := by
  rw [readValue?, skipSpace_cons rfl]
  split
  case h_5 rest same =>
    obtain rfl : c :: cs = rest := (List.cons.inj same).2
    rw [if_neg (Nat.succ_ne_zero room), skipSpace_cons token]
    split
    next same => exact absurd (List.cons.inj same).1 item
    next => rfl
  case h_7 opened _ => exact (opened (c :: cs) rfl).elim
  all_goals
    next same => exact absurd (List.cons.inj same).1 (by decide)

private theorem readValue?_object :
    readValue? rule (fuel + 1) (room + 1) ('{' :: '"' :: cs) =
      (readMembers? rule fuel room ('"' :: cs)).map fun (members, after) =>
        (.object members, after) := by
  rfl

/-- Behind an item stands the next one or the closing bracket. -/
theorem readItems?_next {item : Json} {items : List Json} {after : List Char}
    (first : readValue? rule fuel room cs = some (item, ',' :: rest))
    (others : readItems? rule fuel room rest = some (items, after)) :
    readItems? rule (fuel + 1) room cs = some (item :: items, after) := by
  rw [readItems?, first]
  simp only [Option.bind_eq_bind, Option.bind_some, skipSpace_cons (show isSpace ',' = false by rfl)]
  rw [others]
  rfl

private theorem readItems?_last {item : Json}
    (first : readValue? rule fuel room cs = some (item, ']' :: rest)) :
    readItems? rule (fuel + 1) room cs = some ([item], rest) := by
  rw [readItems?, first]
  rfl

/-- Behind a member stands the next one or the closing brace. -/
theorem readMembers?_next {value : Json} {members : List (String × Json)} {after : List Char}
    (name : String) (first : readValue? rule fuel room cs = some (value, ',' :: rest))
    (others : readMembers? rule fuel room rest = some (members, after)) :
    readMembers? rule (fuel + 1) room (quoted name.toList ++ ':' :: cs) =
      some ((name, value) :: members, after) := by
  rw [quoted_append, readMembers?, skipSpace_cons (show isSpace '"' = false by rfl)]
  simp only [readString?_quoted, Option.bind_eq_bind, Option.bind_some,
    skipSpace_cons (show isSpace ':' = false by rfl), first,
    skipSpace_cons (show isSpace ',' = false by rfl), others]
  rfl

private theorem readMembers?_last {value : Json} (name : String)
    (first : readValue? rule fuel room cs = some (value, '}' :: rest)) :
    readMembers? rule (fuel + 1) room (quoted name.toList ++ ':' :: cs) =
      some ([(name, value)], rest) := by
  rw [quoted_append, readMembers?, skipSpace_cons (show isSpace '"' = false by rfl)]
  simp only [readString?_quoted, Option.bind_eq_bind, Option.bind_some,
    skipSpace_cons (show isSpace ':' = false by rfl), first]
  rfl

/-- With room for its containers the text of a value is read to it under the rule. -/
def ReadsBack (rule : NumberRule) (value : Json) : Prop :=
  ∀ {fuel room : ℕ} {rest : List Char}, value.write.length ≤ fuel → levels value ≤ room →
    EndsNumber rest →
    readValue? rule fuel room (value.write ++ rest) = some (value, rest)

/-- The text of some items is read to them if that of each one is. -/
theorem readItems?_write {items : List Json} (some : items ≠ [])
    (reads : ∀ item ∈ items, ReadsBack rule item) (fits : (writeItems items).length ≤ fuel)
    (shallow : levelsOfItems items ≤ room) :
    readItems? rule fuel room (writeItems items ++ rest) = .some (items, rest) := by
  induction items generalizing fuel with
  | nil => exact absurd rfl some
  | cons item items ih =>
    obtain ⟨first, others⟩ := List.forall_mem_cons.mp reads
    obtain ⟨shallowItem, shallowItems⟩ := Nat.max_le.mp shallow
    cases items with
    | nil =>
      rw [writeItems, List.length_append, List.length_singleton] at fits
      obtain ⟨fuel, rfl⟩ : ∃ more, fuel = more + 1 := Nat.exists_eq_add_one.mpr (by omega)
      rw [writeItems, List.append_assoc]
      exact readItems?_last (first (by omega) shallowItem (endsNumber_cons (.inr (.inl rfl))))
    | cons next items =>
      rw [writeItems_next, List.length_append, List.length_cons] at fits
      obtain ⟨fuel, rfl⟩ : ∃ more, fuel = more + 1 := Nat.exists_eq_add_one.mpr (by omega)
      rw [writeItems_next, List.append_assoc]
      exact readItems?_next (first (by omega) shallowItem (endsNumber_cons (.inl rfl)))
        (ih (List.cons_ne_nil next items) others (by omega) shallowItems)

/-- The text of some members is read to them if that of each value is. -/
theorem readMembers?_write {members : List (String × Json)} (some : members ≠ [])
    (reads : ∀ member ∈ members, ReadsBack rule member.2)
    (fits : (writeMembers members).length ≤ fuel) (shallow : levelsOfMembers members ≤ room) :
    readMembers? rule fuel room (writeMembers members ++ rest) = .some (members, rest) := by
  induction members generalizing fuel with
  | nil => exact absurd rfl some
  | cons member members ih =>
    obtain ⟨name, value⟩ := member
    have first : ReadsBack rule value := reads (name, value) List.mem_cons_self
    have others := (List.forall_mem_cons.mp reads).2
    obtain ⟨shallowValue, shallowMembers⟩ := Nat.max_le.mp shallow
    cases members with
    | nil =>
      rw [writeMembers_last, List.length_append, List.length_cons, List.length_append] at fits
      obtain ⟨fuel, rfl⟩ : ∃ more, fuel = more + 1 := Nat.exists_eq_add_one.mpr (by omega)
      rw [writeMembers_last, List.append_assoc, List.cons_append, List.append_assoc]
      exact readMembers?_last name
        (first (by omega) shallowValue (endsNumber_cons (.inr (.inr rfl))))
    | cons next members =>
      rw [writeMembers_next, List.length_append, List.length_cons, List.length_append,
        List.length_cons] at fits
      obtain ⟨fuel, rfl⟩ : ∃ more, fuel = more + 1 := Nat.exists_eq_add_one.mpr (by omega)
      rw [writeMembers_next, List.append_assoc, List.cons_append, List.append_assoc]
      exact readMembers?_next name (first (by omega) shallowValue (endsNumber_cons (.inl rfl)))
        (ih (List.cons_ne_nil next members) others (by omega) shallowMembers)

/-- No text is empty. -/
theorem exists_fuel {value : Json} (fits : value.write.length ≤ fuel) :
    ∃ fewer, fuel = fewer + 1 := by
  obtain ⟨c, cs, form, -⟩ := write_eq_cons value
  rw [form, List.length_cons] at fits
  exact Nat.exists_eq_add_one.mpr (by omega)

private theorem readsBack_number {x : FiniteFloat} (keeps : KeepsNumber rule x) :
    ReadsBack rule (.number x) := by
  intro fuel room rest fits shallow ends
  obtain ⟨fuel, rfl⟩ := exists_fuel fits
  obtain ⟨c, cs, form, start⟩ := scientific_eq_cons (Decimal.ofFloat .even x.val)
  have read := readNumber?_scientific keeps ends
  rw [form, List.cons_append] at read
  rw [write, form, List.cons_append, readValue?_number start, read]

theorem readsBack_string (content : String) : ReadsBack rule (.string content) := by
  intro fuel room rest fits shallow ends
  obtain ⟨fuel, rfl⟩ := exists_fuel fits
  rw [write, quoted_append, readValue?_string, readString?_quoted]
  rfl

theorem readsBack_array {items : List Json} (reads : ∀ item ∈ items, ReadsBack rule item) :
    ReadsBack rule (.array items) := by
  intro fuel room rest fits shallow ends
  obtain ⟨fuel, rfl⟩ := exists_fuel fits
  obtain ⟨room, rfl⟩ : ∃ more, room = more + 1 :=
    Nat.exists_eq_add_one.mpr (by rw [levels] at shallow; omega)
  rw [write, List.length_cons, Nat.add_le_add_iff_right] at fits
  rw [levels, Nat.add_le_add_iff_right] at shallow
  cases items with
  | nil => rfl
  | cons item items =>
    obtain ⟨c, cs, form, token, another⟩ := writeItems_eq_cons item items
    have read : readItems? rule fuel room (writeItems (item :: items) ++ rest) =
        some (item :: items, rest) :=
      readItems?_write (List.cons_ne_nil item items) reads fits shallow
    rw [form, List.cons_append] at read
    rw [write, form, List.cons_append, List.cons_append, readValue?_array token another, read]
    rfl

theorem readsBack_object {members : List (String × Json)}
    (reads : ∀ member ∈ members, ReadsBack rule member.2) : ReadsBack rule (.object members) := by
  intro fuel room rest fits shallow ends
  obtain ⟨fuel, rfl⟩ := exists_fuel fits
  obtain ⟨room, rfl⟩ : ∃ more, room = more + 1 :=
    Nat.exists_eq_add_one.mpr (by rw [levels] at shallow; omega)
  rw [write, List.length_cons, Nat.add_le_add_iff_right] at fits
  rw [levels, Nat.add_le_add_iff_right] at shallow
  cases members with
  | nil => rfl
  | cons member members =>
    obtain ⟨cs, form⟩ := writeMembers_eq_cons member.1 member.2 members
    have read : readMembers? rule fuel room (writeMembers (member :: members) ++ rest) =
        some (member :: members, rest) :=
      readMembers?_write (List.cons_ne_nil member members) reads fits shallow
    rw [form, List.cons_append] at read
    rw [write, form, List.cons_append, List.cons_append, readValue?_object, read]
    rfl

theorem readsBack_null : ReadsBack rule .null := by
  intro fuel room rest fits shallow ends
  obtain ⟨fuel, rfl⟩ := exists_fuel fits
  rfl

theorem readsBack_bool (holds : Bool) : ReadsBack rule (.bool holds) := by
  intro fuel room rest fits shallow ends
  obtain ⟨fuel, rfl⟩ := exists_fuel fits
  cases holds <;> rfl

/-- With its numbers read by all of their digits the text of every value is read to it. -/
theorem readsBack_exactly (value : Json) : ReadsBack exactly value := by
  induction value using Json.induction with
  | null => exact readsBack_null
  | bool holds => exact readsBack_bool holds
  | number value => exact readsBack_number (keepsNumber_exactly value)
  | string content => exact readsBack_string content
  | array items ih => exact readsBack_array ih
  | object members ih => exact readsBack_object ih

/-- A whole text is read as the value in it is. -/
theorem readUnder?_text {value : Json} (reads : ReadsBack rule value)
    (shallow : levels value ≤ deepest) :
    readUnder? rule value.text = some value := by
  have read : readValue? rule (2 * value.write.length + 2) deepest (value.write ++ []) =
      some (value, []) :=
    reads (by omega) shallow endsNumber_nil
  rw [List.append_nil] at read
  rw [readUnder?, text, String.toList_ofList]
  simp only [read]
  rfl

/-- A whole text as the value it spells, with numbers by all of their digits. -/
def decode? (text : String) : Option Json :=
  readUnder? exactly text

/-- The text of a value that the reader has room for decodes to it. -/
theorem decode?_text {value : Json} (shallow : levels value ≤ deepest) :
    decode? value.text = some value :=
  readUnder?_text (readsBack_exactly value) shallow

/-- No number stands in the value, and its containers nest at most so deep. -/
inductive Numberless : ℕ → Json → Prop
  | null {depth : ℕ} : Numberless depth .null
  | bool {depth : ℕ} (holds : Bool) : Numberless depth (.bool holds)
  | string {depth : ℕ} (content : String) : Numberless depth (.string content)
  | array {depth : ℕ} {items : List Json} (each : ∀ item ∈ items, Numberless depth item) :
    Numberless (depth + 1) (.array items)
  | object {depth : ℕ} {members : List (String × Json)}
    (each : ∀ member ∈ members, Numberless depth member.2) :
    Numberless (depth + 1) (.object members)

namespace Numberless

variable {depth : ℕ} {value : Json}

private theorem readsBack (numberless : Numberless depth value) : ReadsBack rule value := by
  induction numberless with
  | null => exact readsBack_null
  | bool holds => exact readsBack_bool holds
  | string content => exact readsBack_string content
  | array _ ih => exact readsBack_array ih
  | object _ ih => exact readsBack_object ih

theorem levels_le (numberless : Numberless depth value) : levels value ≤ depth := by
  induction numberless with
  | null | bool | string => exact Nat.zero_le _
  | array _ ih => exact Nat.succ_le_succ (levelsOfItems_le ih)
  | object _ ih => exact Nat.succ_le_succ (levelsOfMembers_le ih)

/-- The text of a value without numbers is read to the value itself. -/
theorem read?_text (numberless : Numberless depth value) (shallow : depth ≤ deepest) :
    read? value.text = some value :=
  readUnder?_text numberless.readsBack (numberless.levels_le.trans shallow)

end Numberless

theorem printable_writeItems {items : List Json} (each : ∀ item ∈ items, Printable item.write) :
    Printable (writeItems items) := by
  induction items with
  | nil => exact .cons (by decide) .nil
  | cons item items ih =>
    obtain ⟨first, others⟩ := List.forall_mem_cons.mp each
    cases items with
    | nil => exact first.append (.cons (by decide) .nil)
    | cons next items =>
      rw [writeItems_next]
      exact first.append (.cons (by decide) (ih others))

theorem printable_writeMembers {members : List (String × Json)}
    (each : ∀ member ∈ members, Printable member.2.write) : Printable (writeMembers members) := by
  induction members with
  | nil => exact .cons (by decide) .nil
  | cons member members ih =>
    obtain ⟨name, value⟩ := member
    obtain ⟨first, others⟩ := List.forall_mem_cons.mp each
    have quote : Printable (quoted name.toList) := printable_quoted name.toList
    cases members with
    | nil =>
      rw [writeMembers_last]
      exact quote.append (.cons (by decide)
        (first.append (.cons (by decide) .nil)))
    | cons next members =>
      rw [writeMembers_next]
      exact quote.append (.cons (by decide) (first.append (.cons (by decide) (ih others))))

/-- A text has no control characters, and so it stands in one line. -/
theorem printable_write (value : Json) : Printable value.write := by
  induction value using Json.induction with
  | null => decide
  | bool holds => cases holds <;> decide
  | number value => exact printable_scientific (Decimal.ofFloat .even value.val)
  | string content => exact printable_quoted content.toList
  | array items ih => exact .cons (by decide) (printable_writeItems ih)
  | object members ih => exact .cons (by decide) (printable_writeMembers ih)

end DecisionTree.Json
