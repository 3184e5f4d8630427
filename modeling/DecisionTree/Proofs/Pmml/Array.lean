import DecisionTree.Pmml.Array
import DecisionTree.Proofs.Text.Blank

/-!
Values written as words are read back, however many blanks there are between and around them. In
quotes a blank is a character like any other, and of the others only the quote has to be marked; so
every value can be written that does not end with the mark itself, which would take the closing
quote for one of the value. Without quotes a value is written that is not empty, has no blanks and
does not begin with a quote.
-/

namespace DecisionTree.Pmml

variable {value text rest blanks gap : List Char} {values : List String} {c : Char}

def escaped (c : Char) : List Char :=
  if c = '"' then ['\\', '"'] else [c]

def quoted (value : List Char) : List Char :=
  '"' :: (value.flatMap escaped ++ ['"'])

def arrayText (values : List String) : String :=
  String.ofList (List.intercalate [' '] (values.map fun value => quoted value.toList))

/-- A value that ends with a backslash cannot be written in quotes. -/
def Quotable (value : List Char) : Prop :=
  value.getLast? ≠ some '\\'

instance : Decidable (Quotable value) :=
  inferInstanceAs (Decidable (_ ≠ _))

private theorem Quotable.of_cons (quotable : Quotable (c :: value)) : Quotable value := by
  cases value with
  | nil => exact fun absent => nomatch absent
  | cons next others => rwa [Quotable, List.getLast?_cons_cons] at quotable

private theorem quotedWord_quote : quotedWord ('"' :: rest) = ([], words rest) := by
  rw [quotedWord.eq_def]
  simp

private theorem quotedWord_escaped_quote :
    quotedWord ('\\' :: '"' :: rest) = extendFirst '"' (quotedWord rest) := by
  rw [quotedWord]

private theorem quotedWord_other (other : c ≠ '"') (unmarked : c = '\\' → rest.head? ≠ some '"') :
    quotedWord (c :: rest) = extendFirst c (quotedWord rest) := by
  rw [quotedWord.eq_def]
  split
  next same => cases same
  next same =>
    cases same
    exact absurd rfl (unmarked rfl)
  next same =>
    cases same
    exact if_neg other

private theorem head?_escaped_append (c : Char) (rest : List Char) :
    (escaped c ++ rest).head? ≠ some '"' := by
  unfold escaped
  split <;> simp_all

/-- Up to its closing quote a word is read as it was before it was written. -/
theorem quotedWord_written (quotable : Quotable value) :
    quotedWord (value.flatMap escaped ++ '"' :: rest) = (value, words rest) := by
  induction value with
  | nil => exact quotedWord_quote
  | cons c value ih =>
    rw [List.flatMap_cons, List.append_assoc]
    by_cases quote : c = '"'
    · have mark : escaped c = ['\\', '"'] := if_pos quote
      rw [mark, List.cons_append, List.singleton_append, quotedWord_escaped_quote,
        ih quotable.of_cons, quote]
      rfl
    · have plain : escaped c = [c] := if_neg quote
      rw [plain, List.singleton_append, quotedWord_other quote, ih quotable.of_cons]
      · rfl
      · -- a backslash is not the last character, so no quote of the value's end follows it
        rintro rfl
        cases value with
        | nil => exact absurd rfl quotable
        | cons next others =>
          rw [List.flatMap_cons, List.append_assoc]
          exact head?_escaped_append next _

/-- Nothing, or something that begins with a blank, so that a word in front of it ends there. -/
def EndsWord (rest : List Char) : Prop :=
  ∀ c ∈ rest.head?, Text.isBlank c = true

private theorem endsWord_of_allBlank (blank : Text.AllBlank blanks) : EndsWord blanks :=
  fun c first => blank c (List.mem_of_mem_head? first)

private theorem endsWord_append (nonempty : gap ≠ []) (blank : Text.AllBlank gap)
    (rest : List Char) :
    EndsWord (gap ++ rest) := by
  cases gap with
  | nil => exact absurd rfl nonempty
  | cons c gap =>
    rintro _ ⟨⟩
    exact blank c List.mem_cons_self

private theorem plainWord_of_endsWord (ends : EndsWord rest) :
    plainWord rest = ([], words rest) := by
  cases rest with
  | nil => rw [plainWord, words]
  | cons c rest =>
    rw [plainWord, words, ends c rfl]
    rfl

private theorem plainWord_append (solid : Text.Solid value) (ends : EndsWord rest) :
    plainWord (value ++ rest) = (value, words rest) := by
  induction value with
  | nil => exact plainWord_of_endsWord ends
  | cons c value ih =>
    obtain ⟨first, later⟩ := List.forall_mem_cons.mp solid
    rw [List.cons_append, plainWord, first, ih later]
    rfl

inductive WordOf (value : List Char) : List Char → Prop
  | plain (nonempty : value ≠ []) (solid : Text.Solid value) (bare : value.head? ≠ some '"') :
      WordOf value value
  | quoted (quotable : Quotable value) : WordOf value (quoted value)

theorem words_word_append (word : WordOf value text) (ends : EndsWord rest) :
    words (text ++ rest) = value :: words rest := by
  cases word with
  | plain nonempty solid bare =>
    cases value with
    | nil => exact absurd rfl nonempty
    | cons c value =>
      obtain ⟨first, later⟩ := List.forall_mem_cons.mp solid
      have unquoted : c ≠ '"' := fun quote => bare (congrArg some quote)
      rw [List.cons_append, words, first, plainWord_append later ends]
      simp only [Bool.false_eq_true, if_false, unquoted]
  | quoted quotable =>
    have solid : Text.isBlank '"' = false := rfl
    rw [quoted, List.cons_append, List.append_assoc, List.singleton_append, words, solid]
    simp only [Bool.false_eq_true, if_false, if_true, quotedWord_written quotable]

theorem words_blanks_append (blank : Text.AllBlank blanks) (rest : List Char) :
    words (blanks ++ rest) = words rest := by
  induction blanks with
  | nil => rfl
  | cons c blanks ih =>
    obtain ⟨first, later⟩ := List.forall_mem_cons.mp blank
    rw [List.cons_append, words, first, if_pos rfl, ih later]

/-- A word for each of the values, with blanks between any two of them. -/
inductive Separated : List (List Char) → List Char → Prop
  | none : Separated [] []
  | one {value text : List Char} (word : WordOf value text) : Separated [value] text
  | more {value text gap next later : List Char} {values : List (List Char)}
      (word : WordOf value text) (nonempty : gap ≠ []) (blank : Text.AllBlank gap)
      (rest : Separated (next :: values) later) :
      Separated (value :: next :: values) (text ++ gap ++ later)

private theorem words_separated_append {written : List (List Char)}
    (separated : Separated written text)
    (ends : EndsWord rest) : words (text ++ rest) = written ++ words rest := by
  induction separated with
  | none => rfl
  | one word => exact words_word_append word ends
  | more word nonempty blank _ ih =>
    rw [List.append_assoc, List.append_assoc,
      words_word_append word (endsWord_append nonempty blank _), words_blanks_append blank, ih]
    rfl

/-- The values of an array are those its words stand for. -/
theorem arrayValues_of_separated {before after : List Char} (front : Text.AllBlank before)
    (separated : Separated (values.map String.toList) text) (back : Text.AllBlank after) :
    arrayValues (String.ofList (before ++ text ++ after)) = values := by
  have nothing : words after = [] := by
    rw [← List.append_nil after, words_blanks_append back, words]
  unfold arrayValues
  rw [String.toList_ofList, List.append_assoc, words_blanks_append front,
    words_separated_append separated (endsWord_of_allBlank back), nothing, List.append_nil,
    List.map_map]
  simp [Function.comp_def]

private theorem separated_quoted (written : List (List Char))
    (quotable : ∀ value ∈ written, Quotable value) :
    Separated written (List.intercalate [' '] (written.map quoted)) := by
  induction written with
  | nil => exact .none
  | cons value others ih =>
    obtain ⟨first, later⟩ := List.forall_mem_cons.mp quotable
    cases others with
    | nil =>
      rw [List.map_cons, List.map_nil, List.intercalate_singleton]
      exact .one (.quoted first)
    | cons next others =>
      rw [List.map_cons, List.map_cons, List.intercalate_cons_cons, ← List.map_cons]
      exact .more (.quoted first) (List.cons_ne_nil ' ' []) (by decide) (ih later)

/-- The values of an array are read back from its text. -/
theorem arrayValues_arrayText (quotable : ∀ value ∈ values, Quotable value.toList) :
    arrayValues (arrayText values) = values := by
  have separated := separated_quoted (values.map String.toList) (by simpa using quotable)
  rw [List.map_map] at separated
  have read := arrayValues_of_separated Text.allBlank_nil separated Text.allBlank_nil
  rwa [List.nil_append, List.append_nil] at read

end DecisionTree.Pmml
