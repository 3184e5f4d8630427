import DecisionTree.Proofs.Sequence
import DecisionTree.Proofs.Table
import DecisionTree.Proofs.Text.Encoding
import DecisionTree.Record.Json

namespace DecisionTree.Record

open Text (utf8)

variable {record : Record} {member : Json} {name : String} {x : Float}
  {members others entries before after : List (String × Json)} {error : RecordError}

/-- The member of a name; of repeated ones the last. -/
def heldMember? (members : List (String × Json)) (name : String) : Option Json :=
  members.reverse.lookup name

/-- Arrays and objects are no values of a field. -/
inductive IsContainer : Json → Prop
  | array (items : List Json) : IsContainer (.array items)
  | object (members : List (String × Json)) : IsContainer (.object members)

/-- The value that a member gives to its field; a null gives none. -/
def said? : Json → Option Value
  | .number x => some (.number x.val)
  | .string content => some (.text content)
  | .bool holds => some (.text (if holds then "true" else "false"))
  | .null | .array _ | .object _ => none

private theorem memberValue?_of_container (container : IsContainer member) :
    memberValue? member = none := by
  cases container <;> rfl

private theorem memberValue?_of_plain (plain : ¬IsContainer member) :
    memberValue? member = some (said? member) := by
  cases member with
  | null | number | string => rfl
  | bool holds => cases holds <;> rfl
  | array items => exact absurd (.array items) plain
  | object members => exact absurd (.object members) plain

theorem addMembers_cons_of_plain (plain : ¬IsContainer member) :
    addMembers record ((name, member) :: entries) =
      addMembers ((said? member).elim record (record.insert name)) entries := by
  rw [addMembers, memberValue?_of_plain plain]
  cases said? member <;> rfl

/-- The first container is the error. -/
theorem addMembers_of_first (earlier : ∀ entry ∈ before, ¬IsContainer entry.2)
    (container : IsContainer member) :
    addMembers record (before ++ (name, member) :: after) = .error (.unsupportedValue name) := by
  induction before generalizing record with
  | nil => rw [List.nil_append, addMembers, memberValue?_of_container container]
  | cons entry before ih =>
    obtain ⟨plain, later⟩ := List.forall_mem_cons.mp earlier
    rw [List.cons_append, addMembers_cons_of_plain plain]
    exact ih later

/-- Without a container each field has what its member says, or what the record has. -/
theorem addMembers_of_plain (plain : ∀ entry ∈ entries, ¬IsContainer entry.2)
    (distinct : (entries.map (·.1)).Nodup) (record : Record) :
    ∃ read, addMembers record entries = .ok read ∧
      ∀ name, read.get? name = ((entries.lookup name).bind said?).or (record.get? name) := by
  induction entries generalizing record with
  | nil => exact ⟨record, rfl, fun _ => rfl⟩
  | cons entry rest ih =>
    obtain ⟨first, later⟩ := List.forall_mem_cons.mp plain
    obtain ⟨absent, distinct⟩ := List.nodup_cons.mp distinct
    obtain ⟨read, added, values⟩ := ih later distinct
      ((said? entry.2).elim record (record.insert entry.1))
    refine ⟨read, (addMembers_cons_of_plain first).trans added, fun name => ?_⟩
    rw [values, Table.lookup_head]
    by_cases same : name = entry.1
    · have none : rest.lookup name = none := by
        apply Table.lookup_eq_none
        intro other member again
        exact absent (List.mem_map.mpr ⟨other, member, again.trans same⟩)
      rw [none, if_pos same]
      cases said : said? entry.2 with
      | none => simp [said]
      | some value => simp [said, same]
    · rw [if_neg same]
      cases said? entry.2 with
      | none => rfl
      | some value => simp [same]

theorem mem_entries_iff : (name, member) ∈ (Table.ofList members).entries ↔
    heldMember? members name = some member := by
  rw [← Table.get?_eq_some_iff, Table.get?_ofList]
  rfl

/-- No member that counts is a container. -/
def IsPlain (members : List (String × Json)) : Prop :=
  ∀ name member, heldMember? members name = some member → ¬IsContainer member

/-- The name of the container that is in the way: the least one in the order of the UTF-8 bytes. -/
structure IsFirstContainer (members : List (String × Json)) (name : String) : Prop where
  held : ∃ member, heldMember? members name = some member ∧ IsContainer member
  least : ∀ other member, heldMember? members other = some member → IsContainer member →
    ¬utf8 other < utf8 name

theorem IsFirstContainer.unique {other : String} (first : IsFirstContainer members name)
    (second : IsFirstContainer members other) : name = other := by
  obtain ⟨member, held, container⟩ := first.held
  obtain ⟨member', held', container'⟩ := second.held
  have notAbove := first.least other member' held' container'
  have notBelow := second.least name member held container
  rw [Text.utf8_lt_iff, String.not_lt] at notAbove notBelow
  exact String.le_antisymm notAbove notBelow

private theorem isFirstContainer_of_entries
    (order : (Table.ofList members).entries = before ++ (name, member) :: after)
    (earlier : ∀ entry ∈ before, ¬IsContainer entry.2) (container : IsContainer member) :
    IsFirstContainer members name := by
  have ascending := (Table.ofList members).ascending
  rw [order] at ascending
  obtain ⟨-, behind, -⟩ := List.pairwise_append.mp ascending
  refine ⟨⟨member, mem_entries_iff.mp ?_, container⟩, fun other member' held container' => ?_⟩
  · rw [order]
    exact List.mem_append_right before List.mem_cons_self
  · have inside := mem_entries_iff.mpr held
    rw [order] at inside
    rw [Text.utf8_lt_iff]
    rcases List.mem_append.mp inside with early | late
    · exact absurd container' (earlier _ early)
    · rcases List.mem_cons.mp late with same | later
      · cases same
        exact String.lt_irrefl _
      · exact String.lt_asymm ((List.pairwise_cons.mp behind).1 _ later)

/-- An object is a record of what its members say, or fails at its first container. -/
theorem ofJson_cases (members : List (String × Json)) :
    (IsPlain members ∧ ∃ read, ofJson (.object members) = .ok read ∧
      ∀ name, read.get? name = (heldMember? members name).bind said?) ∨
    ∃ name, IsFirstContainer members name ∧
      ofJson (.object members) = .error (.unsupportedValue name) := by
  rcases Sequence.none_or_first (IsContainer ·.2) (Table.ofList members).entries with
    plain | ⟨before, ⟨name, member⟩, after, order, earlier, container⟩
  · refine .inl ⟨fun name member held => plain _ (mem_entries_iff.mpr held), ?_⟩
    obtain ⟨read, added, values⟩ :=
      addMembers_of_plain plain (Table.ofList members).nodup_names Table.empty
    refine ⟨read, added, fun name => (values name).trans ?_⟩
    have held : (Table.ofList members).entries.lookup name = heldMember? members name :=
      Table.get?_ofList members name
    rw [held, Table.get?_empty, Option.or_none]
  · refine .inr ⟨name, isFirstContainer_of_entries order earlier container, ?_⟩
    rw [ofJson, order]
    exact addMembers_of_first earlier container

theorem IsFirstContainer.not_isPlain (first : IsFirstContainer members name) :
    ¬IsPlain members := by
  obtain ⟨member, held, container⟩ := first.held
  exact fun plain => plain name member held container

theorem ofJson_eq_error_iff :
    ofJson (.object members) = .error error ↔
      ∃ name, IsFirstContainer members name ∧ error = .unsupportedValue name := by
  rcases ofJson_cases members with ⟨plain, read, done, -⟩ | ⟨name, first, failed⟩
  · rw [done]
    constructor
    · intro failed
      cases failed
    · rintro ⟨name, first, -⟩
      exact absurd plain first.not_isPlain
  · rw [failed]
    constructor
    · intro same
      cases same
      exact ⟨name, first, rfl⟩
    · rintro ⟨other, second, rfl⟩
      rw [first.unique second]

theorem ofJson_eq_ok_iff :
    ofJson (.object members) = .ok record ↔
      IsPlain members ∧ ∀ name, record.get? name = (heldMember? members name).bind said? := by
  rcases ofJson_cases members with ⟨plain, read, done, values⟩ | ⟨name, first, failed⟩
  · rw [done]
    constructor
    · intro same
      cases same
      exact ⟨plain, values⟩
    · rintro ⟨-, same⟩
      rw [Table.ext_get? fun name => (values name).trans (same name).symm]
  · rw [failed]
    constructor
    · intro done
      cases done
    · rintro ⟨plain, -⟩
      exact absurd plain first.not_isPlain

/-- An object fails exactly if a member that counts is a container. -/
theorem exists_ofJson_eq_error_iff (members : List (String × Json)) :
    (∃ error, ofJson (.object members) = .error error) ↔
      ∃ name member, heldMember? members name = some member ∧ IsContainer member := by
  rcases ofJson_cases members with ⟨plain, read, done, -⟩ | ⟨name, first, failed⟩
  · rw [done]
    constructor
    · rintro ⟨error, failed⟩
      cases failed
    · rintro ⟨name, member, held, container⟩
      exact absurd container (plain name member held)
  · exact iff_of_true ⟨_, failed⟩ ⟨name, first.held⟩

/-- Two objects hold the same members under all names, apart from nulls. -/
def SameBesideNulls (members others : List (String × Json)) : Prop :=
  ∀ name member, member ≠ .null →
    (heldMember? members name = some member ↔ heldMember? others name = some member)

private theorem IsContainer.ne_null (container : IsContainer member) : member ≠ .null := by
  rintro rfl
  cases container

private theorem SameBesideNulls.bind_said? (same : SameBesideNulls members others) (name : String) :
    (heldMember? members name).bind said? = (heldMember? others name).bind said? := by
  apply Option.ext
  intro value
  rw [Option.bind_eq_some_iff, Option.bind_eq_some_iff]
  refine exists_congr fun member => and_congr_left fun said => same name member ?_
  rintro rfl
  cases said

/-- Nulls have no part in what a record is read to. -/
theorem ofJson_congr (same : SameBesideNulls members others) :
    ofJson (.object members) = ofJson (.object others) := by
  rcases ofJson_cases others with ⟨plain, read, done, values⟩ | ⟨name, first, failed⟩
  · rw [done, ofJson_eq_ok_iff]
    refine ⟨fun name member held container => ?_, fun name => ?_⟩
    · exact plain name member ((same name member container.ne_null).mp held) container
    · rw [values, same.bind_said?]
  · rw [failed, ofJson_eq_error_iff]
    obtain ⟨member, held, container⟩ := first.held
    refine ⟨name, ⟨⟨member, (same name member container.ne_null).mpr held, container⟩, ?_⟩, rfl⟩
    intro other member held container
    exact first.least other member ((same other member container.ne_null).mp held) container

def isNull : Json → Bool
  | .null => true
  | _ => false

/-- The members that are not null. -/
def withoutNulls (members : List (String × Json)) : List (String × Json) :=
  members.filter fun entry => !isNull entry.2

theorem heldMember?_eq_some_iff (distinct : (members.map (·.1)).Nodup) :
    heldMember? members name = some member ↔ (name, member) ∈ members := by
  have distinct' : (members.reverse.map (·.1)).Nodup := by
    rw [List.map_reverse]
    exact List.nodup_reverse.mpr distinct
  rw [← List.mem_reverse]
  refine ⟨fun held => ?_, Table.lookup_of_mem distinct'⟩
  obtain ⟨front, back, order, -⟩ := List.lookup_eq_some_iff.mp held
  rw [order]
  exact List.mem_append_right front List.mem_cons_self

private theorem sameBesideNulls_withoutNulls (distinct : (members.map (·.1)).Nodup) :
    SameBesideNulls (withoutNulls members) members := by
  intro name member some
  have fewer : ((withoutNulls members).map (·.1)).Nodup :=
    (List.filter_sublist.map _).nodup distinct
  have speaks : isNull member = false := by
    cases member with
    | null => exact absurd rfl some
    | _ => rfl
  rw [heldMember?_eq_some_iff fewer, heldMember?_eq_some_iff distinct, withoutNulls,
    List.mem_filter]
  simp [speaks]

/-- What is left of a value that is written and read again. -/
def returned? : Value → Option Value
  | .text content => some (.text content)
  | .number x => if x.isFinite then some (.number x) else none

theorem toJson_of_finite (finite : x.isFinite = true) :
    (Value.number x).toJson = .number ⟨x, finite⟩ := by
  rw [Value.toJson, Json.ofFloat, FiniteFloat.of?, dif_pos finite]

theorem toJson_of_not_finite (infinite : x.isFinite = false) :
    (Value.number x).toJson = .null := by
  rw [Value.toJson, Json.ofFloat, FiniteFloat.of?_of_not_finite infinite]

private theorem said?_toJson (value : Value) : said? value.toJson = returned? value := by
  cases value with
  | text content => rfl
  | number x =>
    rw [returned?]
    cases finite : x.isFinite with
    | true =>
      rw [toJson_of_finite finite]
      rfl
    | false =>
      rw [toJson_of_not_finite finite]
      rfl

private theorem not_isContainer_toJson (value : Value) : ¬IsContainer value.toJson := by
  intro container
  cases value with
  | text content => cases container
  | number x =>
    cases finite : x.isFinite with
    | true =>
      rw [toJson_of_finite finite] at container
      cases container
    | false =>
      rw [toJson_of_not_finite finite] at container
      cases container

/-- Under each name a record is written with its value there. -/
theorem heldMember?_map_toJson (record : Record) (name : String) :
    heldMember? (record.entries.map fun (field, value) => (field, value.toJson)) name =
      (record.get? name).map Value.toJson := by
  have listed := Table.insertAll_of_perm (List.Perm.refl (record.map Value.toJson).entries)
  have same := Table.get?_ofList (record.map Value.toJson).entries name
  rw [Table.ofList, ← Table.insertAll, listed, Table.get?_map] at same
  exact same.symm

/-- Read again a record has what is left of its values. -/
theorem exists_returned (record : Record) :
    ∃ read, ofJson record.toJson = .ok read ∧
      ∀ name, read.get? name = (record.get? name).bind returned? := by
  rw [toJson]
  rcases ofJson_cases (record.entries.map fun (field, value) => (field, value.toJson)) with
    ⟨-, read, done, values⟩ | ⟨name, first, -⟩
  · refine ⟨read, done, fun name => ?_⟩
    rw [values, heldMember?_map_toJson]
    cases record.get? name with
    | none => rfl
    | some value => exact said?_toJson value
  · obtain ⟨member, inside, container⟩ := first.held
    rw [heldMember?_map_toJson] at inside
    obtain ⟨value, -, rfl⟩ := Option.map_eq_some_iff.mp inside
    exact absurd container (not_isContainer_toJson value)

theorem returned?_eq_iff :
    returned? (.number x) = some (.number x) ↔ x.isFinite = true := by
  rw [returned?]
  split
  next finite => simp [finite]
  next infinite => simp [infinite]

/-- A record comes back exactly if its numbers are finite. -/
theorem ofJson_toJson_iff (record : Record) :
    ofJson record.toJson = .ok record ↔
      ∀ name x, record.get? name = some (.number x) → x.isFinite = true := by
  obtain ⟨read, done, values⟩ := exists_returned record
  rw [done, Except.ok.injEq]
  constructor
  · rintro rfl name x found
    have kept := values name
    rw [found, Option.bind_some] at kept
    exact returned?_eq_iff.mp kept.symm
  · intro finite
    apply Table.ext_get?
    intro name
    rw [values]
    cases found : record.get? name with
    | none => rfl
    | some value =>
      cases value with
      | text content => rfl
      | number x => exact returned?_eq_iff.mpr (finite name x found)

/-- A number that is not finite is written as a null, and read again it is missing. -/
theorem missing_of_not_finite (held : record.get? name = some (.number x))
    (infinite : x.isFinite = false) :
    ∃ members, record.toJson = .object members ∧ heldMember? members name = some .null ∧
      ∃ read, ofJson record.toJson = .ok read ∧ read.get? name = none := by
  obtain ⟨read, done, values⟩ := exists_returned record
  refine ⟨_, rfl, ?_, read, done, ?_⟩
  · rw [heldMember?_map_toJson, held, Option.map_some, toJson_of_not_finite infinite]
  · rw [values, held, Option.bind_some, returned?, infinite]
    rfl

/-- What members are to the fields of a record. An object fails exactly if a member that counts is a
container, with the least name of one in the order of the UTF-8 bytes; otherwise each field has what
its member says. Objects that agree apart from nulls are read to the same, as when the nulls are
left out. The object that is written for a record is read to the same record exactly if its numbers
are finite; one that is not is written as a null and comes back as a missing field, and all other
fields come back as they were. -/
theorem fields_of_members (members others : List (String × Json)) (record : Record) :
    ((∃ error, ofJson (.object members) = .error error) ↔
      ∃ name member, heldMember? members name = some member ∧ IsContainer member) ∧
    (∀ error, ofJson (.object members) = .error error ↔
      ∃ name, IsFirstContainer members name ∧ error = .unsupportedValue name) ∧
    (∀ read, ofJson (.object members) = .ok read ↔
      IsPlain members ∧ ∀ name, read.get? name = (heldMember? members name).bind said?) ∧
    (SameBesideNulls members others → ofJson (.object members) = ofJson (.object others)) ∧
    ((members.map (·.1)).Nodup →
      ofJson (.object (withoutNulls members)) = ofJson (.object members)) ∧
    (ofJson record.toJson = .ok record ↔
      ∀ name x, record.get? name = some (.number x) → x.isFinite = true) ∧
    (∃ read, ofJson record.toJson = .ok read ∧
      ∀ name, read.get? name = (record.get? name).bind returned?) ∧
    ∀ name x, record.get? name = some (.number x) → x.isFinite = false →
      ∃ members, record.toJson = .object members ∧ heldMember? members name = some .null ∧
        ∃ read, ofJson record.toJson = .ok read ∧ read.get? name = none :=
  ⟨exists_ofJson_eq_error_iff members, fun _ => ofJson_eq_error_iff, fun _ => ofJson_eq_ok_iff,
    ofJson_congr, fun distinct => ofJson_congr (sameBesideNulls_withoutNulls distinct),
    ofJson_toJson_iff record, exists_returned record, fun _ _ => missing_of_not_finite⟩

/-- A record with a number of sixteen digits, a text, and a number that is none. -/
def measured : Record :=
  ((Table.empty.insert "n" (.number 9007199254740991)).insert "note" (.text "")).insert "x"
    (.number (0.0 / 0.0))

theorem fields_of_members_kept :
    SameBesideNulls [("a", .string "x"), ("a", .bool true), ("b", .null)] [("a", .bool true)] ∧
    ofJson (.object [("a", .string "x"), ("a", .bool true), ("b", .null)]) =
      ofJson (.object [("a", .bool true)]) ∧
    ofJson (.object (withoutNulls [("b", .null), ("a", .bool true)])) =
      ofJson (.object [("b", .null), ("a", .bool true)]) ∧
    ofJson (toJson (Table.empty.insert "n" (.number 9007199254740991))) =
      .ok (Table.empty.insert "n" (.number 9007199254740991)) ∧
    measured.get? "x" = some (.number (0.0 / 0.0)) ∧
    ∃ members, measured.toJson = .object members ∧ heldMember? members "x" = some .null ∧
      ∃ read, ofJson measured.toJson = .ok read ∧ read.get? "x" = none := by
  have agree : SameBesideNulls
      [("a", .string "x"), ("a", .bool true), ("b", .null)] [("a", .bool true)] := by
    intro name member some
    by_cases first : name = "a"
    · simp [heldMember?, Table.lookup_head, first]
    · by_cases second : name = "b"
      · simp [heldMember?, Table.lookup_head, second, some.symm]
      · simp [heldMember?, Table.lookup_head, first, second]
  have held : measured.get? "x" = some (.number (0.0 / 0.0)) := rfl
  have infinite : (0.0 / 0.0 : Float).isFinite = false := by decide +kernel
  obtain ⟨-, -, -, same, -⟩ := fields_of_members _ _ Table.empty
  obtain ⟨-, -, -, -, fewer, back, -⟩ := fields_of_members
    [("b", .null), ("a", .bool true)] [] (Table.empty.insert "n" (.number 9007199254740991))
  obtain ⟨-, -, -, -, -, -, -, lost⟩ := fields_of_members [] [] measured
  refine ⟨agree, same agree, fewer (by decide), back.mpr ?_, held, lost _ _ held infinite⟩
  intro name x found
  rw [Table.get?_insert] at found
  split at found
  · cases found
    decide
  · cases found

end DecisionTree.Record
