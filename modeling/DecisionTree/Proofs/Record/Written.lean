import DecisionTree.Proofs.Record.Assignment
import DecisionTree.Proofs.Table
import DecisionTree.Proofs.Value
import Mathlib.Tactic.MkIffOfInductiveProp

namespace DecisionTree

open Text (AllBlank Padded)

namespace Value

variable {value : Value}

/-- What can be written as a literal: finite numbers and texts without commas. -/
def Writable : Value → Prop
  | number x => x.isFinite = true
  | text content => ',' ∉ content.toList

instance : DecidablePred Writable
  | number x => inferInstanceAs (Decidable (x.isFinite = true))
  | text content => inferInstanceAs (Decidable (',' ∉ content.toList))

/-- A text in double quotes, nothing in it escaped, and a number as it is displayed. -/
def literal : Value → List Char
  | number x => (Number.display x).toList
  | text content => '"' :: (content.toList ++ ['"'])

private theorem trimmed_literal (writable : value.Writable) :
    Text.trimmed value.literal = value.literal := by
  cases value with
  | number x => exact Number.trimmed_display writable
  | text content => exact Text.trimmed_enclosed rfl content.toList

private theorem comma_not_mem_literal (writable : value.Writable) : ',' ∉ value.literal := by
  cases value with
  | number x => exact Number.not_mem_display writable rfl (by decide) (by decide)
  | text content =>
    simp only [literal, List.mem_cons, List.mem_append, List.not_mem_nil, or_false]
    rintro (quote | inside | quote)
    · cases quote
    · exact writable inside
    · cases quote

private theorem unquoted?_eq_none {cs : List Char} (absent : '"' ∉ cs) : unquoted? cs = none := by
  unfold unquoted?
  split
  next rest => exact absurd List.mem_cons_self absent
  next => rfl

private theorem unquoted?_enclosed (content : List Char) :
    unquoted? ('"' :: (content ++ ['"'])) = some content := by
  simp [unquoted?]

private theorem unquoted?_display {x : Float} (finite : x.isFinite = true) :
    unquoted? (Number.display x).toList = none :=
  unquoted?_eq_none (Number.not_mem_display finite rfl (by decide) (by decide))

/-- A literal is read as the value it was written for. -/
theorem ofLiteral_of_padded {written : String} (writable : value.Writable)
    (padded : Padded value.literal written.toList) : ofLiteral written = value := by
  have typed : Text.trimmed written.toList = value.literal :=
    padded.trimmed_eq.trans (trimmed_literal writable)
  rw [ofLiteral, typed]
  cases value with
  | number x =>
    have same : Text.trim written = Text.trim (Number.display x) := by
      rw [Text.trim, typed, Number.trim_display writable]
      exact String.ofList_toList
    have finite : (some x).filter Float.isFinite = some x :=
      Option.filter_eq_some_iff.mpr ⟨rfl, writable⟩
    simp only [literal, unquoted?_display writable, Number.finite?_congr same,
      Number.finite?_display, finite]
  | text content =>
    simp only [literal, unquoted?_enclosed, String.ofList_toList]

end Value

namespace Record

variable {record : Record} {name text : String} {entry : String × Value} {segment : List Char}
  {fields : List (String × Value)} {segments : List (List Char)}

/-- Field names that stand in front of an equals sign as they are. -/
@[mk_iff] structure WritableName (name : String) : Prop where
  nonempty : name ≠ ""
  trimmed : Text.trim name = name
  noSign : '=' ∉ name.toList
  noComma : ',' ∉ name.toList

instance (name : String) : Decidable (WritableName name) :=
  decidable_of_iff _ (writableName_iff name).symm

@[mk_iff] structure Writable (entry : String × Value) : Prop where
  name : WritableName entry.1
  value : entry.2.Writable

instance (entry : String × Value) : Decidable (Writable entry) :=
  decidable_of_iff _ (writable_iff entry).symm

/-- A field as an assignment, with any blanks around its name and its literal. -/
inductive Writes (entry : String × Value) : List Char → Prop
  | assignment {left right : List Char} (name : Padded entry.1.toList left)
      (literal : Padded entry.2.literal right) : Writes entry (left ++ '=' :: right)

private theorem WritableName.trimmed_toList (writable : WritableName name) :
    Text.trimmed name.toList = name.toList := by
  have same := congrArg String.toList writable.trimmed
  rwa [Text.trim, String.toList_ofList] at same

private theorem Writes.assigns (writes : Writes entry segment) (writable : Writable entry) :
    ∃ literal, Assigns segment entry.1 literal ∧ Value.ofLiteral literal = entry.2 := by
  obtain @⟨left, right, name, literal⟩ := writes
  have trimmed : Text.trimmed left = entry.1.toList :=
    name.trimmed_eq.trans writable.name.trimmed_toList
  have solid : ¬AllBlank left := by
    rw [← Text.trimmed_eq_nil_iff, trimmed, String.toList_eq_nil_iff]
    exact writable.name.nonempty
  refine ⟨String.ofList right, .named (by simp) ?_ solid trimmed, ?_⟩
  · exact name.not_mem rfl writable.name.noSign
  · exact Value.ofLiteral_of_padded writable.value (by simpa using literal)

private theorem Writes.comma_not_mem (writes : Writes entry segment) (writable : Writable entry) :
    ',' ∉ segment := by
  obtain ⟨name, literal⟩ := writes
  have inName := name.not_mem rfl writable.name.noComma
  have inLiteral := literal.not_mem rfl (Value.comma_not_mem_literal writable.value)
  simp [inName, inLiteral]

private theorem Writes.not_allBlank (writes : Writes entry segment) : ¬AllBlank segment := by
  obtain ⟨name, literal⟩ := writes
  intro blank
  have sign := blank '=' (by simp)
  cases sign

/-- Segments that write the fields in order, blank ones among them. -/
inductive Segments : List (String × Value) → List (List Char) → Prop
  | nil : Segments [] []
  | blank {fields : List (String × Value)} {segment : List Char} {segments : List (List Char)}
      (blank : AllBlank segment) (rest : Segments fields segments) :
      Segments fields (segment :: segments)
  | field {entry : String × Value} {fields : List (String × Value)} {segment : List Char}
      {segments : List (List Char)} (writes : Writes entry segment)
      (rest : Segments fields segments) : Segments (entry :: fields) (segment :: segments)

/-- The text is made of the record's fields in any order, with commas between the segments. -/
inductive WrittenAs (record : Record) (text : String) : Prop
  | written {fields : List (String × Value)} {segments : List (List Char)}
      (order : fields.Perm record.entries) (each : Segments fields segments)
      (joined : text.toList = List.intercalate [','] segments)

private theorem Segments.comma_not_mem (written : Segments fields segments)
    (writable : ∀ entry ∈ fields, Writable entry) : ∀ segment ∈ segments, ',' ∉ segment := by
  induction written with
  | nil => exact fun _ absent => nomatch absent
  | blank blank rest ih =>
    exact List.forall_mem_cons.mpr ⟨Text.not_mem_of_allBlank blank rfl, ih writable⟩
  | field writes rest ih =>
    obtain ⟨first, later⟩ := List.forall_mem_cons.mp writable
    exact List.forall_mem_cons.mpr ⟨writes.comma_not_mem first, ih later⟩

/-- The assignments of a text are the segments that are not blank. -/
theorem assignmentsOf_of_joined (joined : text.toList = List.intercalate [','] segments)
    (whole : ∀ segment ∈ segments, ',' ∉ segment) :
    assignmentsOf text = segments.filter fun segment => !(Text.trimmed segment).isEmpty := by
  rw [assignmentsOf, joined]
  cases segments with
  | nil => rfl
  | cons first rest => rw [Text.pieces_intercalate (List.cons_ne_nil first rest) whole]

/-- Each field is inserted in its turn, and blank segments change nothing. -/
theorem Segments.assignAll_eq (written : Segments fields segments)
    (writable : ∀ entry ∈ fields, Writable entry) (base : Record) :
    base.assignAll (segments.filter fun segment => !(Text.trimmed segment).isEmpty) =
      .ok (base.insertAll fields) := by
  induction written generalizing base with
  | nil => rfl
  | blank blank rest ih =>
    rw [List.filter_cons_of_neg (by simp [Text.trimmed_eq_nil_iff.mpr blank])]
    exact ih writable base
  | field writes rest ih =>
    obtain ⟨first, later⟩ := List.forall_mem_cons.mp writable
    obtain ⟨literal, assigns, read⟩ := writes.assigns first
    rw [List.filter_cons_of_pos (by simp [Text.trimmed_eq_nil_iff, writes.not_allBlank]),
      assignAll, assignInPlace, insertAssignment_of_assigns assigns, read, Table.insertAll_cons]
    exact ih later _

/-- A record is read from the texts that it can be written as. -/
theorem ofAssignments_of_writtenAs (writable : ∀ entry ∈ record.entries, Writable entry)
    (written : WrittenAs record text) : ofAssignments text = .ok record := by
  obtain ⟨order, each, joined⟩ := written
  have inOrder := fun entry member => writable entry (order.mem_iff.mp member)
  rw [ofAssignments, assignmentsOf_of_joined joined (each.comma_not_mem inOrder),
    each.assignAll_eq inOrder, Table.insertAll_of_perm order]

/-- A text that looks like a number, a number, no text at all, and a text with quotes, an equals
sign and outer blanks. -/
def visit : Record :=
  Table.ofList [("code", .text "12"), ("depth", .number (-0.5)), ("note", .text ""),
    ("said", .text " a=\"b\" ")]

/-- The fields in another order, with two blank segments. -/
def visitText : String :=
  " depth = -0.5 ,,said=\u3000\" a=\"b\" \"\t,code=\"12\", \n, note =\"\""

theorem ofAssignments_of_writtenAs_visit :
    (∀ entry ∈ visit.entries, Writable entry) ∧ WrittenAs visit visitText ∧
      ofAssignments visitText = .ok visit := by
  have writable : ∀ entry ∈ visit.entries, Writable entry := by decide +kernel
  have space : AllBlank [' '] := by decide
  have wide : AllBlank ['\u3000'] := by decide
  have tab : AllBlank ['\t'] := by decide
  have line : AllBlank [' ', '\n'] := by decide
  have nothing := Text.allBlank_nil
  have each : Segments [("depth", .number (-0.5)), ("said", .text " a=\"b\" "),
      ("code", .text "12"), ("note", .text "")] _ :=
    .field (.assignment (.blanks space space) (.blanks space space)) <| .blank nothing <|
    .field (.assignment (.blanks nothing nothing) (.blanks wide tab)) <|
    .field (.assignment (.blanks nothing nothing) (.blanks nothing nothing)) <| .blank line <|
    .field (.assignment (.blanks space space) (.blanks nothing nothing)) .nil
  have written : WrittenAs visit visitText :=
    .written (by decide +kernel) each (by decide +kernel)
  exact ⟨writable, written, ofAssignments_of_writtenAs writable written⟩

end Record
end DecisionTree
