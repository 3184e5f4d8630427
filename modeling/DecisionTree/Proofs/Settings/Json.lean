import DecisionTree.Proofs.Json.Outline
import DecisionTree.Proofs.Table
import DecisionTree.Proofs.Text.Keyword
import DecisionTree.Settings.Json

namespace DecisionTree

instance : Vocabulary.Lawful OutputForm := ⟨fun member => by cases member <;> decide, by decide⟩

namespace Json

variable {α : Type} {declared : List String} {json : Json} {slots : List (Option Json)}

private theorem ofKeyword_ne_null [Vocabulary α] (member : α) : ofKeyword member ≠ .null := by
  intro same
  cases same

theorem keyword?_ofKeyword [Vocabulary α] [Vocabulary.Lawful α] (member : α) :
    keyword? (ofKeyword member) = some member :=
  Vocabulary.named?_eq_some_iff.mpr rfl

private theorem items?_map_string (contents : List String) :
    items? text? (.array (contents.map .string)) = some contents := by
  induction contents with
  | nil => rfl
  | cons content rest ih =>
    rw [items?] at ih
    rw [items?, List.map_cons, List.mapM_cons, ih]
    rfl

private theorem nullable_of_ne_null {read? : Json → Option α} (present : json ≠ .null) :
    nullable read? json = (read? json).map some := by
  cases json with
  | null => exact absurd rfl present
  | _ => rfl

/-- A slot that is only filled with a value is read to this value or none. -/
theorem orDefault_written {read? : Json → Option α} {write : α → Json}
    (present : ∀ x, write x ≠ .null) (reads : ∀ x, read? (write x) = some x) (value : Option α) :
    Settings.orDefault none (nullable read?) (value.map write) = some value := by
  cases value with
  | none => rfl
  | some x => rw [Option.map_some, Settings.orDefault, nullable_of_ne_null (present x), reads]; rfl

theorem forall_mem_optionalMember {holds : String × Json → Prop} {name : String} {write : α → Json}
    (each : ∀ x, holds (name, write x)) (value : Option α) :
    ∀ member ∈ optionalMember name write value, holds member := by
  cases value with
  | none => exact fun _ absent => nomatch absent
  | some x => exact List.forall_mem_singleton.mpr (each x)

theorem numberless_ofKeyword [Vocabulary α] {depth : ℕ} (member : α) :
    Numberless depth (ofKeyword member) :=
  .string _

/-- The values of a structure with their names: the members of an object, or the items of an array
under the names in the order of their declaration. -/
def given (declared : List String) : Json → List (String × Json)
  | .object members => members
  | .array items => declared.zip items
  | _ => []

/-- The value is an object with a member whose name is not declared. -/
def HasUndeclared (declared : List String) : Json → Prop
  | .object members => ∃ member ∈ members, member.1 ∉ declared
  | _ => False

/-- The slots of a structure are all that it is given: no name is undeclared, and each value is in
the slot of its name. -/
theorem slots?_complete (read : json.slots? declared = some slots) :
    ¬json.HasUndeclared declared ∧ ∀ name value, (name, value) ∈ json.given declared →
      ∃ place : ℕ, declared[place]? = some name ∧ slots[place]? = some (some value) := by
  cases json with
  | object members =>
    rw [slots?, Settings.slotsOf?] at read
    split at read
    case isFalse => cases read
    case isTrue valid =>
      rw [Bool.and_eq_true, List.all_eq_true, decide_eq_true_iff] at valid
      obtain ⟨known, distinct⟩ := valid
      have listed : ∀ member ∈ members, member.1 ∈ declared := fun member inside =>
        List.contains_iff_mem.mp (known _ (List.mem_map_of_mem inside))
      refine ⟨fun ⟨member, inside, unknown⟩ => unknown (listed member inside), ?_⟩
      intro name value inside
      obtain ⟨place, found⟩ := List.mem_iff_getElem?.mp (listed _ inside)
      refine ⟨place, found, ?_⟩
      rw [← Option.some.inj read, List.getElem?_map, found, Option.map_some,
        Table.lookup_of_mem distinct inside]
  | array items =>
    rw [slots?] at read
    split at read
    case isFalse => cases read
    case isTrue =>
      refine ⟨id, fun name value inside => ?_⟩
      obtain ⟨place, found⟩ := List.mem_iff_getElem?.mp inside
      obtain ⟨named, placed⟩ := List.getElem?_zip_eq_some.mp found
      refine ⟨place, named, ?_⟩
      obtain ⟨small, -⟩ := List.getElem?_eq_some_iff.mp placed
      rw [← Option.some.inj read, List.getElem?_append_left (by rwa [List.length_map]),
        List.getElem?_map, placed, Option.map_some]
  | null | bool | number | string => cases read

private theorem given_outline :
    (outline json).given declared = (json.given declared).map outlineMember := by
  cases json with
  | object members => rw [outline_object, given, given]
  | array items => rw [outline_array, given, given, List.zip_map_right]; rfl
  | null | bool | number | string => rfl

private theorem hasUndeclared_outline :
    (outline json).HasUndeclared declared ↔ json.HasUndeclared declared := by
  cases json with
  | object members =>
    rw [outline_object]
    constructor
    · rintro ⟨_, inside, unknown⟩
      obtain ⟨member, held, rfl⟩ := List.mem_map.mp inside
      exact ⟨member, held, unknown⟩
    · rintro ⟨member, inside, unknown⟩
      exact ⟨outlineMember member, List.mem_map_of_mem inside, unknown⟩
  | array items => rw [outline_array]; rfl
  | null | bool | number | string => rfl

end Json

open Json (Numberless outline)

namespace Overrides

variable {json : Json} {overrides : Overrides}

theorem ofJson?_eq_some_iff : ofJson? json = some overrides ↔
    ∃ missingValue noTrueChild,
      json.slots? Settings.overrideNames = some [missingValue, noTrueChild] ∧
      Settings.orDefault none (Json.nullable Json.keyword?) missingValue =
        some overrides.missingValue ∧
      Settings.orDefault none (Json.nullable Json.keyword?) noTrueChild =
        some overrides.noTrueChild := by
  unfold ofJson?
  constructor
  · intro read
    obtain ⟨slots, filled, read⟩ := Option.bind_eq_some_iff.mp read
    split at read
    case h_2 => cases read
    obtain ⟨_, missing, read⟩ := Option.bind_eq_some_iff.mp read
    obtain ⟨_, fails, built⟩ := Option.bind_eq_some_iff.mp read
    cases built
    exact ⟨_, _, filled, missing, fails⟩
  · rintro ⟨missingValue, noTrueChild, filled, missing, fails⟩
    simp [filled, missing, fails]

private theorem not_hasUndeclared_of_ofJson? (read : ofJson? json = some overrides) :
    ¬json.HasUndeclared Settings.overrideNames := by
  obtain ⟨_, _, filled, -⟩ := ofJson?_eq_some_iff.mp read
  exact (Json.slots?_complete filled).1

private theorem toJson_ne_null (overrides : Overrides) : overrides.toJson ≠ .null := by
  intro same
  cases same

theorem slots?_toJson (overrides : Overrides) :
    overrides.toJson.slots? Settings.overrideNames =
      some [overrides.missingValue.map Json.ofKeyword, overrides.noTrueChild.map Json.ofKeyword] := by
  obtain ⟨missingValue, noTrueChild⟩ := overrides
  cases missingValue <;> cases noTrueChild <;> rfl

theorem ofJson?_toJson (overrides : Overrides) : ofJson? overrides.toJson = some overrides :=
  ofJson?_eq_some_iff.mpr ⟨_, _, overrides.slots?_toJson,
    Json.orDefault_written Json.ofKeyword_ne_null Json.keyword?_ofKeyword _,
    Json.orDefault_written Json.ofKeyword_ne_null Json.keyword?_ofKeyword _⟩

theorem numberless_toJson (overrides : Overrides) : Numberless 1 overrides.toJson :=
  .object (List.forall_mem_append.mpr
    ⟨Json.forall_mem_optionalMember Json.numberless_ofKeyword overrides.missingValue,
      Json.forall_mem_optionalMember Json.numberless_ofKeyword overrides.noTrueChild⟩)

end Overrides

namespace Settings

variable {json : Json} {settings : Settings}

theorem ofJson?_eq_some_iff : ofJson? json = some settings ↔
    ∃ logLevel output patterns strategies,
      json.slots? names = some [logLevel, output, patterns, strategies] ∧
      orDefault "warn" Json.text? logLevel = some settings.logLevel ∧
      orDefault .text Json.keyword? output = some settings.output ∧
      orDefault [] (Json.items? Json.text?) patterns = some settings.patterns ∧
      orDefault none (Json.nullable Overrides.ofJson?) strategies = some settings.strategies := by
  unfold ofJson?
  constructor
  · intro read
    obtain ⟨slots, filled, read⟩ := Option.bind_eq_some_iff.mp read
    split at read
    case h_2 => cases read
    obtain ⟨_, level, read⟩ := Option.bind_eq_some_iff.mp read
    obtain ⟨_, form, read⟩ := Option.bind_eq_some_iff.mp read
    obtain ⟨_, places, read⟩ := Option.bind_eq_some_iff.mp read
    obtain ⟨_, imposed, built⟩ := Option.bind_eq_some_iff.mp read
    cases built
    exact ⟨_, _, _, _, filled, level, form, places, imposed⟩
  · rintro ⟨logLevel, output, patterns, strategies, filled, level, form, places, imposed⟩
    simp [filled, level, form, places, imposed]

theorem slots?_toJson (settings : Settings) :
    settings.toJson.slots? names =
      some [some (.string settings.logLevel), some (Json.ofKeyword settings.output),
        some (.array (settings.patterns.map .string)), settings.strategies.map Overrides.toJson] := by
  obtain ⟨logLevel, output, patterns, strategies⟩ := settings
  cases strategies <;> rfl

theorem ofJson?_toJson (settings : Settings) : ofJson? settings.toJson = some settings :=
  ofJson?_eq_some_iff.mpr ⟨_, _, _, _, settings.slots?_toJson, rfl,
    Json.keyword?_ofKeyword settings.output, Json.items?_map_string settings.patterns,
    Json.orDefault_written Overrides.toJson_ne_null Overrides.ofJson?_toJson settings.strategies⟩

theorem numberless_toJson (settings : Settings) : Numberless 2 settings.toJson := by
  have patterns : Numberless 1 (.array (settings.patterns.map .string)) :=
    .array (List.forall_mem_map.mpr fun content _ => .string content)
  refine .object (List.forall_mem_append.mpr ⟨?_, ?_⟩)
  · simp only [List.forall_mem_cons]
    exact ⟨.string _, Json.numberless_ofKeyword _, patterns, fun _ absent => nomatch absent⟩
  · exact Json.forall_mem_optionalMember Overrides.numberless_toJson settings.strategies

/-- An object for the settings, or for the strategies in them, has a name that is not declared. -/
def HasStranger (json : Json) : Prop :=
  json.HasUndeclared names ∨
    ∃ strategies, ("strategies", strategies) ∈ json.given names ∧
      strategies.HasUndeclared overrideNames

private theorem place_of_strategies {place : ℕ} (named : names[place]? = some "strategies") :
    place = 3 := by
  have distinct : names.Nodup := by decide
  have last : names[3]? = some "strategies" := rfl
  have inside : 3 < names.length := by decide
  exact ((List.getElem?_inj inside distinct).mp (last.trans named.symm)).symm

private theorem not_hasStranger_of_ofJson? (read : ofJson? json = some settings) :
    ¬HasStranger json := by
  obtain ⟨logLevel, output, patterns, strategies, filled, -, -, -, imposed⟩ :=
    ofJson?_eq_some_iff.mp read
  obtain ⟨known, placed⟩ := Json.slots?_complete filled
  rintro (stranger | ⟨inner, inside, stranger⟩)
  · exact known stranger
  · obtain ⟨place, named, slot⟩ := placed _ _ inside
    obtain rfl := place_of_strategies named
    obtain rfl : strategies = some inner := Option.some.inj slot
    -- only an object has names, and as an object it was read as overrides
    cases inner with
    | object members =>
      obtain ⟨overrides, accepted, -⟩ := Option.map_eq_some_iff.mp imposed
      exact Overrides.not_hasUndeclared_of_ofJson? accepted stranger
    | _ => exact stranger

private theorem hasStranger_outline : HasStranger (outline json) ↔ HasStranger json := by
  unfold HasStranger
  rw [Json.hasUndeclared_outline, Json.given_outline]
  refine or_congr_right ⟨?_, ?_⟩
  · rintro ⟨_, inside, stranger⟩
    obtain ⟨⟨name, value⟩, held, same⟩ := List.mem_map.mp inside
    cases same
    exact ⟨value, held, Json.hasUndeclared_outline.mp stranger⟩
  · rintro ⟨strategies, inside, stranger⟩
    exact ⟨outline strategies, List.mem_map_of_mem inside,
      Json.hasUndeclared_outline.mpr stranger⟩

def decode? (text : String) : Option Settings :=
  Json.read? text >>= ofJson?

/-- Settings are read again from the text that is written for them. -/
theorem decode?_written (settings : Settings) : decode? settings.toJson.text = some settings := by
  rw [decode?, settings.numberless_toJson.read?_text (by decide)]
  exact settings.ofJson?_toJson

/-- Whatever is made of its numbers, a text with an undeclared name is refused. -/
theorem decode?_of_hasStranger {rule : Json.NumberRule} {text : String}
    (spelled : Json.readUnder? rule text = some json) (stranger : HasStranger json) :
    decode? text = none := by
  rw [Option.eq_none_iff_forall_ne_some]
  intro settings accepted
  -- the library's rule may have made other numbers of the text, but no other names
  obtain ⟨other, read, said⟩ := Option.bind_eq_some_iff.mp accepted
  have same : outline json = outline other := Json.outline_eq_of_readUnder? spelled read
  refine not_hasStranger_of_ofJson? said (hasStranger_outline.mp ?_)
  rw [← same]
  exact hasStranger_outline.mpr stranger

/-- The JSON text of settings is read to the same settings. What is read from a text comes back so
when it is written and read again. A text with an undeclared name in an object for the settings or
for the strategies in them is refused, however the rest of it reads. -/
theorem decode?_toJson :
    (∀ settings : Settings, decode? settings.toJson.text = some settings) ∧
    (∀ text settings, decode? text = some settings →
      decode? settings.toJson.text = some settings) ∧
    ∀ rule text json, Json.readUnder? rule text = some json → HasStranger json →
      decode? text = none :=
  ⟨decode?_written, fun _ settings _ => decode?_written settings,
    fun _ _ _ => decode?_of_hasStranger⟩

/-- Settings with strategies of which none is set. -/
def emptied : String :=
  "\x7b\"strategies\":\x7b\x7d\x7d"

/-- Settings with a strategy that is not declared, and for it a number that no double holds. -/
def misnamed : String :=
  "\x7b\"strategies\":\x7b\"missing\":1e999\x7d\x7d"

/-- A rule that refuses no number. -/
def lenient : Json.NumberRule :=
  fun _ _ _ _ => some ⟨0, by decide⟩

def misnamedMembers : Json :=
  .object [("strategies", .object [("missing", .number ⟨0, by decide⟩)])]

private theorem decode?_emptied : decode? emptied = some { strategies := some {} } := by
  have chars : emptied.toList = _ := String.toList_ofList
  rw [decode?, Json.read?, Json.readUnder?, chars]
  rfl

private theorem readUnder?_misnamed : Json.readUnder? lenient misnamed = some misnamedMembers := by
  have chars : misnamed.toList = _ := String.toList_ofList
  rw [Json.readUnder?, chars]
  rfl

theorem decode?_toJson_emptied :
    decode? emptied = some { strategies := some {} } ∧
    decode? (toJson { strategies := some {} }).text = some { strategies := some {} } ∧
    Json.readUnder? lenient misnamed = some misnamedMembers ∧ HasStranger misnamedMembers ∧
    decode? misnamed = none := by
  have stranger : HasStranger misnamedMembers :=
    .inr ⟨_, List.mem_singleton_self _, _, List.mem_singleton_self _, by decide⟩
  obtain ⟨-, again, refused⟩ := decode?_toJson
  exact ⟨decode?_emptied, again _ _ decode?_emptied, readUnder?_misnamed, stranger,
    refused _ _ _ readUnder?_misnamed stranger⟩

end Settings
end DecisionTree
