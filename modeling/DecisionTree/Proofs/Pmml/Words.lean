import DecisionTree.Proofs.Pmml.Array

namespace DecisionTree.Pmml

open Text (isBlank AllBlank Solid)

variable {cs run front rest : List Char} {c : Char}

/-- What is left of a text that is cut at every blank, the empty pieces apart. -/
def runs (cs : List Char) : List (List Char) :=
  (cs.splitOnP isBlank).filter (!·.isEmpty)

theorem runs_blank_cons (blank : isBlank c = true) (rest : List Char) :
    runs (c :: rest) = runs rest := by
  rw [runs, List.splitOnP_cons_eq_if_modifyHead, if_pos blank]
  rfl

private theorem runs_run_append (nonempty : run ≠ []) (solid : Solid run)
    (ends : EndsWord rest) : runs (run ++ rest) = run :: runs rest := by
  have kept : (!run.isEmpty) = true := by simpa using nonempty
  cases rest with
  | nil =>
    rw [List.append_nil, runs, List.splitOnP_eq_singleton solid, List.filter_singleton, kept]
    rfl
  | cons c rest =>
    rw [runs_blank_cons (ends c rfl), runs,
      List.splitOnP_append_cons_of_forall_mem solid c (ends c rfl), List.filter_cons, kept]
    rfl

/-- A text is empty, or begins with a blank, or begins with a run up to a blank or the end. -/
theorem runs_induction {motive : List Char → Prop} (nil : motive [])
    (blank : ∀ c rest, isBlank c = true → motive rest → motive (c :: rest))
    (run : ∀ run rest, run ≠ [] → Solid run → EndsWord rest →
      motive rest → motive (run ++ rest)) :
    ∀ cs, motive cs
  | [] => nil
  | c :: cs => by
    by_cases first : isBlank c = true
    · exact blank c cs first (runs_induction nil blank run cs)
    · have taken : (c :: cs).takeWhile (!isBlank ·) ≠ [] := by simp [first]
      have dropped : (c :: cs).dropWhile (!isBlank ·) = cs.dropWhile (!isBlank ·) := by
        simp [first]
      have shorter := (List.dropWhile_sublist (!isBlank ·) (l := cs)).length_le
      rw [← List.takeWhile_append_dropWhile (p := (!isBlank ·)) (l := c :: cs), dropped]
      refine run _ _ taken ?_ ?_ (runs_induction nil blank run _)
      · intro d member
        simpa using List.mem_takeWhile_imp member
      · intro d first
        have stopped := List.head?_dropWhile_not (!isBlank ·) cs
        rw [first] at stopped
        simpa using stopped
termination_by cs => cs.length

/-- No quote stands at the beginning or behind a blank. -/
def Unquoted (cs : List Char) : Prop :=
  ∀ before after, cs = before ++ '"' :: after → ∃ c ∈ before.getLast?, isBlank c = false

theorem unquoted_iff_take : Unquoted cs ↔ ∀ index < cs.length, cs[index]? = some '"' →
    ((cs.take index).getLast?.any fun c => !isBlank c) = true := by
  simp only [Option.any_eq_true, Bool.not_eq_eq_eq_not, Bool.not_true]
  constructor
  · intro unquoted index within quote
    refine unquoted (cs.take index) (cs.drop (index + 1)) ?_
    rw [← (List.getElem?_eq_some_iff.mp quote).2, ← List.drop_eq_getElem_cons within,
      List.take_append_drop]
  · rintro apart before after rfl
    simpa using apart before.length (by simp) (by simp)

instance (cs : List Char) : Decidable (Unquoted cs) :=
  decidable_of_iff _ unquoted_iff_take.symm

private theorem Unquoted.head?_ne (unquoted : Unquoted cs) : cs.head? ≠ some '"' := by
  intro head
  obtain ⟨after, rfl⟩ := List.head?_eq_some_iff.mp head
  obtain ⟨_, absent, _⟩ := unquoted [] after rfl
  cases absent

private theorem Unquoted.of_append (unquoted : Unquoted (front ++ rest))
    (apart : rest.head? = some '"' → AllBlank front) : Unquoted rest := by
  rintro before after rfl
  obtain ⟨c, last, solid⟩ := unquoted (front ++ before) after (List.append_assoc ..).symm
  cases before with
  | nil =>
    rw [List.append_nil] at last
    have blank := apart rfl c (List.mem_of_mem_getLast? last)
    rw [solid] at blank
    cases blank
  | cons d before =>
    rw [List.getLast?_append_of_ne_nil _ (List.cons_ne_nil d before)] at last
    exact ⟨c, last, solid⟩

private theorem words_eq_runs (unquoted : Unquoted cs) : words cs = runs cs := by
  induction cs using runs_induction with
  | nil => rw [words]; rfl
  | blank c rest blank ih =>
    have alone : AllBlank [c] := List.forall_mem_singleton.mpr blank
    have later : Unquoted rest := Unquoted.of_append unquoted fun _ => alone
    rw [words, if_pos blank, runs_blank_cons blank, ih later]
  | run run rest nonempty solid ends ih =>
    have bare : run.head? ≠ some '"' := by
      have first := unquoted.head?_ne
      rwa [List.head?_append_of_ne_nil _ nonempty] at first
    have later : Unquoted rest := unquoted.of_append fun quote => absurd (ends _ quote) (by decide)
    rw [words_word_append (.plain nonempty solid bare) ends, runs_run_append nonempty solid ends,
      ih later]

/-- The text of an array: blanks, words for the values with blanks between them, and blanks. -/
def IsArrayOf (values : List String) (text : String) : Prop :=
  ∃ before written after, text.toList = before ++ written ++ after ∧ AllBlank before ∧
    Separated (values.map String.toList) written ∧ AllBlank after

/-- However the values of an array are written, they are decoded. A text without words in quotes is
decoded to the runs of characters between its blanks. -/
theorem arrayValues_exact :
    (∀ values text, IsArrayOf values text → arrayValues text = values) ∧
      ∀ text : String, Unquoted text.toList →
        arrayValues text = (runs text.toList).map String.ofList := by
  constructor
  · rintro values text ⟨before, written, after, same, front, separated, back⟩
    rw [← String.ofList_toList (s := text), same]
    exact arrayValues_of_separated front separated back
  · intro text unquoted
    rw [arrayValues, words_eq_runs unquoted]

/-- Four values, written with and without quotes and set apart by blanks of several kinds. -/
def places : String :=
  " \"New York\"\tBoston\u2003\u3000\"say \\\"hi\\\"\" \"\"\n"

theorem arrayValues_exact_places :
    IsArrayOf ["New York", "Boston", "say \"hi\"", ""] places ∧
      arrayValues places = ["New York", "Boston", "say \"hi\"", ""] ∧
      Unquoted "5\" pipe\u3000\\".toList ∧
      arrayValues "5\" pipe\u3000\\" =
        (runs "5\" pipe\u3000\\".toList).map String.ofList := by
  have tab : AllBlank ['\t'] := by decide
  have wide : AllBlank ['\u2003', '\u3000'] := by decide
  have space : AllBlank [' '] := by decide
  have line : AllBlank ['\n'] := by decide
  have written : IsArrayOf ["New York", "Boston", "say \"hi\"", ""] places := by
    refine ⟨_, _, _, ?_, space, .more (.quoted ?_) ?_ tab (.more (.plain ?_ ?_ ?_) ?_ wide
      (.more (.quoted ?_) ?_ space (.one (.quoted ?_)))), line⟩
    all_goals decide +kernel
  have plain : Unquoted "5\" pipe\u3000\\".toList := by decide +kernel
  exact ⟨written, arrayValues_exact.1 _ _ written, plain, arrayValues_exact.2 _ plain⟩

end DecisionTree.Pmml
