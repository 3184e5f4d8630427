import DecisionTree.Command.RecordInput
import DecisionTree.Proofs.Record.Assignment
import DecisionTree.Proofs.Sequence

/-!
Assignments overlay a record from left to right. The first malformed one ends the series and is the
error; those in front of it have been carried out, and it has changed nothing. Without a malformed
one each field has the last value given to it, or else the value it had in the base. So assignments
win over the record of a file, and the second of two texts wins over the first.
-/

namespace DecisionTree

open Sequence

namespace Record

variable {base record : Record} {assignments before : List (List Char)}
  {assignment : List Char} {field literal : String} {error : RecordError}
  {failure : Option RecordError}

/-- The literal that an assignment gives to a field, if it is one to that field. -/
def literalFor? (field : String) (assignment : List Char) : Option String :=
  match splitAssignment? assignment with
  | some (name, literal) => if name = field then some literal else none
  | none => none

theorem literalFor?_eq_some_iff :
    literalFor? field assignment = some literal ↔ Assigns assignment field literal := by
  rw [← splitAssignment?_eq_some_iff, literalFor?]
  split
  next name written split => simp [split]
  next split => simp [split]

/-- The value of the last literal given to a field. -/
def lastValue? (field : String) (assignments : List (List Char)) : Option Value :=
  (assignments.filterMap (literalFor? field)).getLast?.map Value.ofLiteral

theorem lastValue?_append (field : String) (first second : List (List Char)) :
    lastValue? field (first ++ second) = (lastValue? field second).or (lastValue? field first) := by
  simp only [lastValue?, List.filterMap_append, List.getLast?_append, Option.map_or]

private theorem lastValue?_singleton (assigns : Assigns assignment field literal) (name : String) :
    lastValue? name [assignment] =
      if name = field then some (Value.ofLiteral literal) else none := by
  rw [← splitAssignment?_eq_some_iff] at assigns
  by_cases same : name = field
  · simp [lastValue?, literalFor?, assigns, same]
  · simp [lastValue?, literalFor?, assigns, same, Ne.symm same]

/-- Each field has the last value that the assignments give to it, or the one it has in the base. -/
def IsOverlay (base : Record) (assignments : List (List Char)) (record : Record) : Prop :=
  ∀ field, record.get? field = (lastValue? field assignments).or (base.get? field)

theorem IsOverlay.unique {other : Record} (first : IsOverlay base assignments record)
    (second : IsOverlay base assignments other) : record = other :=
  Table.ext_get? fun field => (first field).trans (second field).symm

theorem IsOverlay.nil (base : Record) : IsOverlay base [] base :=
  fun _ => rfl

/-- One assignment more in front is one more in the base. -/
theorem IsOverlay.cons (assigns : Assigns assignment field literal)
    (overlay : IsOverlay (base.insert field (Value.ofLiteral literal)) assignments record) :
    IsOverlay base (assignment :: assignments) record := by
  intro name
  rw [overlay name, Table.get?_insert, ← List.singleton_append, lastValue?_append,
    lastValue?_singleton assigns, Option.or_assoc]
  split
  next => rfl
  next => rfl

/-- How a series of assignments ends: with all of them carried out, or at the first malformed one
with those in front of it carried out. -/
inductive Ends (base : Record) (assignments : List (List Char)) :
    Record → Option RecordError → Prop
  | done {record : Record} (sound : ∀ assignment ∈ assignments, ¬Malformed assignment)
      (overlay : IsOverlay base assignments record) : Ends base assignments record none
  | stopped {record : Record} {before after : List (List Char)} {assignment : List Char}
      (order : assignments = before ++ assignment :: after)
      (earlier : ∀ assignment ∈ before, ¬Malformed assignment) (fault : Malformed assignment)
      (overlay : IsOverlay base before record) :
      Ends base assignments record
        (some (.malformedAssignment (String.ofList (Text.trimmed assignment))))

/-- Sound assignments are carried out, whatever comes behind them. -/
theorem exists_overlay (sound : ∀ assignment ∈ before, ¬Malformed assignment) (base : Record) :
    ∃ record, IsOverlay base before record ∧
      ∀ rest, assignInPlace base (before ++ rest) = assignInPlace record rest := by
  induction before generalizing base with
  | nil => exact ⟨base, .nil base, fun _ => rfl⟩
  | cons assignment before ih =>
    obtain ⟨first, later⟩ := List.forall_mem_cons.mp sound
    obtain ⟨field, literal, assigns⟩ := not_malformed_iff.mp first
    obtain ⟨record, overlay, run⟩ := ih later (base.insert field (Value.ofLiteral literal))
    refine ⟨record, overlay.cons assigns, fun rest => ?_⟩
    rw [List.cons_append, assignInPlace, insertAssignment_of_assigns assigns]
    exact run rest

/-- Every series ends in one of the two ways. -/
theorem exists_ends (base : Record) (assignments : List (List Char)) :
    ∃ record failure, Ends base assignments record failure := by
  rcases none_or_first Malformed assignments with
    sound | ⟨before, assignment, after, order, earlier, fault⟩
  · obtain ⟨record, overlay, -⟩ := exists_overlay sound base
    exact ⟨record, none, .done sound overlay⟩
  · obtain ⟨record, overlay, -⟩ := exists_overlay earlier base
    exact ⟨record, _, .stopped order earlier fault overlay⟩

private theorem Ends.assignInPlace_eq (ends : Ends base assignments record failure) :
    assignInPlace base assignments = (record, failure) := by
  cases ends with
  | done sound overlay =>
    obtain ⟨reached, other, run⟩ := exists_overlay sound base
    rw [← List.append_nil assignments, run, overlay.unique other, assignInPlace]
  | stopped order earlier fault overlay =>
    obtain ⟨reached, other, run⟩ := exists_overlay earlier base
    rw [order, run, overlay.unique other, assignInPlace, insertAssignment_of_malformed fault]

theorem assignInPlace_eq_iff :
    assignInPlace base assignments = (record, failure) ↔ Ends base assignments record failure := by
  constructor
  · intro same
    obtain ⟨reached, outcome, ends⟩ := exists_ends base assignments
    cases same.symm.trans ends.assignInPlace_eq
    exact ends
  · exact Ends.assignInPlace_eq

/-- What a series in place comes to when its record is given up with the error. -/
theorem assignAll_eq (base : Record) (assignments : List (List Char)) :
    base.assignAll assignments =
      match assignInPlace base assignments with
      | (record, none) => .ok record
      | (_, some error) => .error error := rfl

theorem assignAll_eq_ok_iff :
    base.assignAll assignments = .ok record ↔ Ends base assignments record none := by
  rw [← assignInPlace_eq_iff, assignAll_eq]
  rcases assignInPlace base assignments with ⟨reached, _ | error⟩ <;> simp

theorem assignAll_eq_error_iff :
    base.assignAll assignments = .error error ↔
      ∃ left, Ends base assignments left (some error) := by
  simp only [← assignInPlace_eq_iff]
  rw [assignAll_eq]
  rcases assignInPlace base assignments with ⟨reached, _ | error⟩ <;> simp

/-- A series fails exactly if one of its assignments is malformed. -/
theorem exists_assignAll_eq_error_iff (base : Record) (assignments : List (List Char)) :
    (∃ error, base.assignAll assignments = .error error) ↔
      ∃ assignment ∈ assignments, Malformed assignment := by
  simp only [assignAll_eq_error_iff]
  constructor
  · rintro ⟨_, _, _ | ⟨rfl, _, fault, _⟩⟩
    exact ⟨_, List.mem_append_right _ List.mem_cons_self, fault⟩
  · rintro ⟨assignment, member, fault⟩
    obtain ⟨record, failure, ends⟩ := exists_ends base assignments
    cases ends with
    | done sound overlay => exact absurd fault (sound assignment member)
    | stopped order earlier first overlay =>
      exact ⟨_, record, .stopped order earlier first overlay⟩

theorem assignAll_append (base : Record) (first second : List (List Char)) :
    base.assignAll (first ++ second) =
      (base.assignAll first >>= fun record => record.assignAll second) := by
  induction first generalizing base with
  | nil => rfl
  | cons assignment first ih =>
    rw [List.cons_append, assignAll, assignAll, assignInPlace, assignInPlace]
    rcases base.insertAssignment assignment with ⟨next, _ | error⟩
    · exact ih next
    · rfl

/-- The base has no part in how a series fails. -/
theorem assignAll_eq_error_congr (base other : Record) :
    base.assignAll assignments = .error error → other.assignAll assignments = .error error := by
  simp only [assignAll_eq_error_iff]
  rintro ⟨_, _ | ⟨order, earlier, fault, _⟩⟩
  obtain ⟨record, overlay, -⟩ := exists_overlay earlier other
  exact ⟨record, .stopped order earlier fault overlay⟩

/-- A series over a base is the record it makes of nothing, and below it the base. -/
theorem assignAll_eq_ok_iff_over :
    base.assignAll assignments = .ok record ↔
      ∃ upper, assignAll Table.empty assignments = .ok upper ∧
        ∀ field, record.get? field = (upper.get? field).or (base.get? field) := by
  simp only [assignAll_eq_ok_iff]
  have value {upper : Record} (above : IsOverlay Table.empty assignments upper) (field : String) :
      upper.get? field = lastValue? field assignments :=
    (above field).trans (Option.or_none ..)
  constructor
  · rintro ⟨sound, overlay⟩
    obtain ⟨upper, above, -⟩ := exists_overlay sound Table.empty
    refine ⟨upper, .done sound above, fun field => ?_⟩
    rw [value above, overlay field]
  · rintro ⟨upper, ⟨sound, above⟩, combined⟩
    refine .done sound fun field => ?_
    rw [combined field, value above]

private theorem assignmentsOf_append (first second : String) :
    assignmentsOf (first ++ "," ++ second) = assignmentsOf first ++ assignmentsOf second := by
  have cut : (first ++ "," ++ second).toList = first.toList ++ ',' :: second.toList := by simp
  rw [assignmentsOf, cut, Text.pieces_append, List.filter_append]
  rfl

theorem ofAssignments_append (first second : String) :
    ofAssignments (first ++ "," ++ second) =
      (ofAssignments first >>= fun record => record.assignAll (assignmentsOf second)) := by
  rw [ofAssignments, assignmentsOf_append, assignAll_append]
  rfl

theorem ofAssignments_append_eq_ok_iff {first second : String} :
    ofAssignments (first ++ "," ++ second) = .ok record ↔
      ∃ lower upper, ofAssignments first = .ok lower ∧ ofAssignments second = .ok upper ∧
        ∀ field, record.get? field = (upper.get? field).or (lower.get? field) := by
  rw [ofAssignments_append, bind_eq_ok_iff]
  refine exists_congr fun lower => ?_
  rw [assignAll_eq_ok_iff_over, ofAssignments, ofAssignments, exists_and_left]

theorem ofAssignments_append_eq_error_iff {first second : String} :
    ofAssignments (first ++ "," ++ second) = .error error ↔
      ofAssignments first = .error error ∨
        (∃ lower, ofAssignments first = .ok lower) ∧ ofAssignments second = .error error := by
  have same (lower : Record) : lower.assignAll (assignmentsOf second) = .error error ↔
      ofAssignments second = .error error :=
    ⟨assignAll_eq_error_congr _ _, assignAll_eq_error_congr _ _⟩
  rw [ofAssignments_append, bind_eq_error_iff]
  simp only [same, exists_and_right]

end Record

namespace Command

variable {file : Option RecordFile} {fields : List String} {record : Record}
  {failure : RecordFailure}

/-- What assignments are put on top of: the record of the file, or nothing without a file. -/
def baseRecord : Option RecordFile → Except RecordFailure Record
  | some file => file.record
  | none => .ok Table.empty

theorem buildRecord_eq (file : Option RecordFile) (fields : List String) :
    buildRecord file fields =
      (baseRecord file >>= fun base =>
        (base.assignAll (fields.map String.toList)).mapError .assignment) := by
  cases file <;> rfl

theorem buildRecord_eq_ok_iff :
    buildRecord file fields = .ok record ↔
      ∃ base, baseRecord file = .ok base ∧
        Record.Ends base (fields.map String.toList) record none := by
  simp only [buildRecord_eq, bind_eq_ok_iff, mapError_eq_ok_iff, Record.assignAll_eq_ok_iff]

theorem buildRecord_eq_error_iff :
    buildRecord file fields = .error failure ↔
      baseRecord file = .error failure ∨
        ∃ base left error, baseRecord file = .ok base ∧
          Record.Ends base (fields.map String.toList) left (some error) ∧
          failure = .assignment error := by
  simp only [buildRecord_eq, bind_eq_error_iff, mapError_eq_error_iff,
    Record.assignAll_eq_error_iff]
  refine or_congr_right (exists_congr fun base => ?_)
  constructor
  · rintro ⟨based, error, ⟨left, ends⟩, rfl⟩
    exact ⟨left, error, based, ends, rfl⟩
  · rintro ⟨left, error, based, ends, rfl⟩
    exact ⟨based, error, ⟨left, ends⟩, rfl⟩

end Command

namespace Record

/-- Assignments overlay a record from left to right. A series fails exactly if one of them is
malformed; the first such one is the error, what came before it has been carried out and nothing
else. Otherwise each field has the value of the last literal given to it, or that of the base. So
assignments win over the record of a file, and the second of two texts wins over the first. -/
theorem assignments_overlay :
    (∀ assignment field literal,
      literalFor? field assignment = some literal ↔ Assigns assignment field literal) ∧
    (∀ base assignments left failure,
      assignInPlace base assignments = (left, failure) ↔ Ends base assignments left failure) ∧
    (∀ base assignments, assignAll base assignments =
      match assignInPlace base assignments with
      | (record, none) => .ok record
      | (_, some error) => .error error) ∧
    (∀ base assignments, (∃ error, assignAll base assignments = .error error) ↔
      ∃ assignment ∈ assignments, Malformed assignment) ∧
    (∀ file fields record, Command.buildRecord file fields = .ok record ↔
      ∃ base, Command.baseRecord file = .ok base ∧
        Ends base (fields.map String.toList) record none) ∧
    (∀ file fields failure, Command.buildRecord file fields = .error failure ↔
      Command.baseRecord file = .error failure ∨
        ∃ base left error, Command.baseRecord file = .ok base ∧
          Ends base (fields.map String.toList) left (some error) ∧
          failure = .assignment error) ∧
    (∀ first second record, ofAssignments (first ++ "," ++ second) = .ok record ↔
      ∃ lower upper, ofAssignments first = .ok lower ∧ ofAssignments second = .ok upper ∧
        ∀ field, record.get? field = (upper.get? field).or (lower.get? field)) ∧
    ∀ first second error, ofAssignments (first ++ "," ++ second) = .error error ↔
      ofAssignments first = .error error ∨
        (∃ lower, ofAssignments first = .ok lower) ∧ ofAssignments second = .error error :=
  ⟨fun _ _ _ => literalFor?_eq_some_iff, fun _ _ _ _ => assignInPlace_eq_iff, assignAll_eq,
    exists_assignAll_eq_error_iff, fun _ _ _ => Command.buildRecord_eq_ok_iff,
    fun _ _ _ => Command.buildRecord_eq_error_iff, fun _ _ _ => ofAssignments_append_eq_ok_iff,
    fun _ _ _ => ofAssignments_append_eq_error_iff⟩

end Record
end DecisionTree
