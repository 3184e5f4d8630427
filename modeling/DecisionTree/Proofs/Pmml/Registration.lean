import DecisionTree.Proofs.Pmml.Reading
import DecisionTree.Proofs.Table

namespace DecisionTree

namespace Pmml

open Xml (Content Attribute)
open Sequence (bind_eq_ok_iff map_eq_ok_iff mapM_append_eq_ok_iff Gathers)
open Vocabulary (Spells)

variable {attributes : List Attribute} {content rest : List Content} {item : Content}

def readField (item : Content) : Except LoadError MiningField :=
  (required "MiningField" "name" (attributesOf item)).map fun name =>
    ⟨name, Xml.valueOf? "usageType" (attributesOf item)⟩

theorem readField_eq_ok_iff {field : MiningField} :
    readField item = .ok field ↔
      Xml.valueOf? "name" (attributesOf item) = some field.name ∧
        Xml.valueOf? "usageType" (attributesOf item) = field.usage := by
  unfold readField
  rw [map_eq_ok_iff]
  simp only [required_eq_ok_iff]
  constructor
  · rintro ⟨name, given, rfl⟩
    exact ⟨given, rfl⟩
  · rintro ⟨given, usage⟩
    exact ⟨field.name, given, by rw [usage]⟩

private theorem readFields_eq_mapM (content : List Content) :
    readFields content = (content.filter (·.hasTag "MiningField")).mapM readField := by
  induction content with
  | nil => rfl
  | cons item rest ih =>
    rw [readFields, List.filter_cons, ih]
    by_cases declares : item.tag? = some "MiningField"
    · rw [if_pos declares, if_pos (Content.hasTag_iff.mpr declares), List.mapM_cons, readField]
      cases required "MiningField" "name" (attributesOf item) <;> rfl
    · rw [if_neg declares, if_neg fun named => declares (Content.hasTag_iff.mp named)]

/-- The elements that declare fields, from all schemas among content. -/
def fieldElements (content : List Content) : List Content :=
  (content.filter (·.hasTag "MiningSchema")).flatMap fun schema =>
    (contentOf schema).filter (·.hasTag "MiningField")

theorem fieldElements_cons_of_schema (schema : item.hasTag "MiningSchema" = true) :
    fieldElements (item :: rest) =
      (contentOf item).filter (·.hasTag "MiningField") ++ fieldElements rest := by
  rw [fieldElements, List.filter_cons_of_pos schema]
  rfl

theorem fieldElements_cons_of_other (other : item.hasTag "MiningSchema" = false) :
    fieldElements (item :: rest) = fieldElements rest := by
  rw [fieldElements, List.filter_cons_of_neg (by simp [other])]
  rfl

/-- Reading the parts of a model gathers the declared fields and at most one root. -/
theorem readModelParts_eq_ok_iff {parts next : ModelParts} :
    readModelParts parts content = .ok next ↔
      (∃ fields, (fieldElements content).mapM readField = .ok fields ∧
        parts.fields ++ fields = next.fields) ∧
      Gathers (·.hasTag "Node") readNode parts.root.toList next.root.toList content := by
  obtain ⟨fields', root'⟩ := next
  induction content generalizing parts with
  | nil =>
    obtain ⟨fields, root⟩ := parts
    rw [readModelParts, Gathers.nil_option_iff, Except.ok.injEq, ModelParts.mk.injEq]
    simp [fieldElements, pure, Except.pure]
  | cons item rest ih =>
    rw [readModelParts]
    split
    next named =>
      have schema : item.hasTag "MiningSchema" = true := Content.hasTag_of_tag named
      have root : item.hasTag "Node" = false := Content.hasTag_of_tag named
      rw [bind_eq_ok_iff, fieldElements_cons_of_schema schema, Gathers.cons_of_neg root]
      simp only [ih, readFields_eq_mapM, mapM_append_eq_ok_iff]
      constructor
      · rintro ⟨here, read, ⟨later, others, same⟩, root⟩
        exact ⟨⟨here ++ later, ⟨here, later, read, others, rfl⟩, by simpa using same⟩, root⟩
      · rintro ⟨⟨_, ⟨here, later, read, others, rfl⟩, same⟩, root⟩
        exact ⟨here, read, ⟨later, others, by simpa using same⟩, root⟩
    next named =>
      have schema : item.hasTag "MiningSchema" = false := Content.hasTag_of_tag named
      have root : item.hasTag "Node" = true := Content.hasTag_of_tag named
      rw [fieldElements_cons_of_other schema, Gathers.cons_option_of_pos root]
      cases parts.root with
      | some earlier => simp
      | none =>
        simp only [bind_eq_ok_iff, ih, true_and]
        constructor
        · rintro ⟨node, read, fields, others⟩
          exact ⟨fields, node, read, others⟩
        · rintro ⟨fields, node, read, others⟩
          exact ⟨node, read, fields, others⟩
    next notSchema notRoot =>
      have schema : item.hasTag "MiningSchema" = false := by
        rw [Bool.eq_false_iff]
        exact fun named => notSchema (Content.hasTag_iff.mp named)
      have root : item.hasTag "Node" = false := by
        rw [Bool.eq_false_iff]
        exact fun named => notRoot (Content.hasTag_iff.mp named)
      rw [fieldElements_cons_of_other schema, Gathers.cons_of_neg root, ih]

/-- A keyword attribute is left out, or spells what is read. -/
theorem optionalKeyword_eq_ok_iff {α : Type} [Vocabulary α]
    {read : String → Except UnknownStrategy α}
    (reads : ∀ keyword member, read keyword = .ok member ↔ Spells member keyword)
    {key : String} {result : Option α} :
    optionalKeyword read key attributes = .ok result ↔
      (Xml.valueOf? key attributes = none ∧ result = none) ∨
        ∃ written member, Xml.valueOf? key attributes = some written ∧ Spells member written ∧
          result = some member := by
  have trimmed (keyword : String) (member : α) :
      (read (Text.trim keyword)).toOption = some member ↔ Spells member keyword := by
    rw [← (reads (Text.trim keyword) member).trans Vocabulary.spells_trim]
    cases read (Text.trim keyword) <;> simp [Except.toOption]
  simp only [optionalKeyword, optional_eq_ok_iff, trimmed]

theorem readModel_eq_ok_iff {model : Model} :
    readModel item = .ok model ↔
      (fieldElements (contentOf item)).mapM readField = .ok model.fields ∧
      ((contentOf item).filter (·.hasTag "Node")).mapM readNode = .ok [model.root] ∧
      (∃ split, optionalKeyword Split.read "splitCharacteristic" (attributesOf item) = .ok split ∧
        split.getD .multi = model.split) ∧
      (∃ missingValue noTrueChild,
        optionalKeyword MissingValueStrategy.read "missingValueStrategy" (attributesOf item) =
          .ok missingValue ∧
        optionalKeyword NoTrueChildStrategy.read "noTrueChildStrategy" (attributesOf item) =
          .ok noTrueChild ∧
        Overrides.apply ⟨missingValue, noTrueChild⟩ {} = model.strategies) ∧
      Xml.valueOf? "modelName" (attributesOf item) = model.name ∧
      Xml.valueOf? "functionName" (attributesOf item) = model.function := by
  unfold readModel
  simp only [bind_eq_ok_iff, readModelParts_eq_ok_iff]
  constructor
  · rintro ⟨⟨fields, root⟩, ⟨⟨_, declared, rfl⟩, roots, found, same⟩, read⟩
    cases root with
    | none => cases read
    | some root =>
      simp only [bind_eq_ok_iff] at read
      obtain ⟨split, splits, missingValue, misses, noTrueChild, fails, built⟩ := read
      cases built
      cases same
      exact ⟨declared, found, ⟨split, splits, rfl⟩, ⟨missingValue, noTrueChild, misses, fails, rfl⟩,
        rfl, rfl⟩
  · rintro ⟨declared, found, ⟨split, splits, splitSame⟩,
      ⟨missingValue, noTrueChild, misses, fails, strategies⟩, name, function⟩
    refine ⟨⟨model.fields, some model.root⟩, ⟨⟨_, declared, rfl⟩, _, found, rfl⟩, ?_⟩
    simp only [bind_eq_ok_iff]
    refine ⟨split, splits, missingValue, misses, noTrueChild, fails, ?_⟩
    rw [splitSame, strategies, name, function]
    rfl

/-- The name under which a tree model element is registered: its own, or its number. -/
def elementKey (number : Nat) (item : Content) : String :=
  (Xml.valueOf? "modelName" (attributesOf item)).getD s!"model-{number}"

/-- The names for tree model elements counted from a number. -/
def elementKeys (number : Nat) (items : List Content) : List String :=
  (items.zipIdx number).map fun (item, index) => elementKey index item

def modelElements (content : List Content) : List Content :=
  content.filter (·.hasTag "TreeModel")

def registerAll (models : Table Model) (entries : List (String × Model)) : Table Model :=
  entries.foldl (fun table entry => table.insert entry.1 entry.2) models

theorem register_eq_ok_iff {registry next : Registry} {number : Nat} {model : Model}
    (read : readModel item = .ok model) :
    register registry number model = .ok next ↔
      registry.models.contains (elementKey number item) = false ∧
        { registry with models := registry.models.insert (elementKey number item) model } =
          next := by
  have name : model.name.getD s!"model-{number}" = elementKey number item := by
    rw [elementKey, (readModel_eq_ok_iff.mp read).2.2.2.2.1]
  simp only [register, name]
  cases registry.models.contains (elementKey number item) <;> simp

@[simp] theorem elementKeys_cons (number : Nat) (items : List Content) :
    elementKeys number (item :: items) =
      elementKey number item :: elementKeys (number + 1) items := by
  simp [elementKeys]

/-- The description of the last header, if there is one. -/
def describe (held : Option String) (content : List Content) : Option String :=
  content.foldl (fun held item =>
    if item.hasTag "Header" then Xml.valueOf? "description" (attributesOf item) else held) held

@[mk_iff] structure ModelsRead (registry next : Registry) (number : Nat)
    (content : List Content) : Prop where
  distinct : (elementKeys number (modelElements content)).Nodup
  fresh : ∀ key ∈ elementKeys number (modelElements content), registry.models.contains key = false
  models : ∃ models, (modelElements content).mapM readModel = .ok models ∧
    registerAll registry.models ((elementKeys number (modelElements content)).zip models) =
      next.models
  version : registry.version = next.version
  description : describe registry.description content = next.description

namespace ModelsRead

variable {registry next : Registry} {number : Nat}

theorem nil_iff : ModelsRead registry next number [] ↔ registry = next := by
  cases registry
  cases next
  simp [modelsRead_iff, modelElements, elementKeys, describe, registerAll, pure, Except.pure,
    and_comm, and_assoc]

theorem cons_of_model (named : item.hasTag "TreeModel" = true) :
    ModelsRead registry next number (item :: rest) ↔
      ∃ model, readModel item = .ok model ∧
        ∃ between, register registry number model = .ok between ∧
          ModelsRead between next (number + 1) rest := by
  have tagged : item.tag? = some "TreeModel" := Content.hasTag_iff.mp named
  have header : item.hasTag "Header" = false := Content.hasTag_of_tag tagged
  have elements : modelElements (item :: rest) = item :: modelElements rest :=
    List.filter_cons_of_pos named
  simp only [modelsRead_iff, elements, elementKeys_cons, List.nodup_cons, List.forall_mem_cons,
    Sequence.mapM_cons_eq_ok_iff, describe, List.foldl_cons, header]
  constructor
  · rintro ⟨⟨different, distinct⟩, ⟨absent, fresh⟩,
      ⟨_, ⟨model, models, read, others, rfl⟩, registered⟩, version, description⟩
    refine ⟨model, read, _, (register_eq_ok_iff read).mpr ⟨absent, rfl⟩, distinct, ?_,
      ⟨models, others, registered⟩, version, description⟩
    intro key member
    refine Table.contains_insert_eq_false_iff.mpr ⟨?_, fresh key member⟩
    rintro rfl
    exact different member
  · rintro ⟨model, read, between, registered, distinct, fresh, ⟨models, others, all⟩, version,
      description⟩
    obtain ⟨absent, rfl⟩ := (register_eq_ok_iff read).mp registered
    have apart (key : String) (member : key ∈ elementKeys (number + 1) (modelElements rest)) :=
      Table.contains_insert_eq_false_iff.mp (fresh key member)
    refine ⟨⟨fun member => (apart _ member).1 rfl, distinct⟩,
      ⟨absent, fun key member => (apart key member).2⟩,
      ⟨_, ⟨model, models, read, others, rfl⟩, all⟩, version, description⟩

theorem cons_of_header (named : item.hasTag "Header" = true) :
    ModelsRead registry next number (item :: rest) ↔
      ModelsRead { registry with
        description := Xml.valueOf? "description" (attributesOf item) } next number rest := by
  have tagged : item.tag? = some "Header" := Content.hasTag_iff.mp named
  have other : item.hasTag "TreeModel" = false := Content.hasTag_of_tag tagged
  have elements : modelElements (item :: rest) = modelElements rest :=
    List.filter_cons_of_neg (by simp [other])
  simp only [modelsRead_iff, elements, describe, List.foldl_cons, named, if_true]

theorem cons_of_other (notHeader : item.hasTag "Header" = false)
    (notModel : item.hasTag "TreeModel" = false) :
    ModelsRead registry next number (item :: rest) ↔ ModelsRead registry next number rest := by
  have elements : modelElements (item :: rest) = modelElements rest :=
    List.filter_cons_of_neg (by simp [notModel])
  simp only [modelsRead_iff, elements, describe, List.foldl_cons, notHeader, Bool.false_eq_true,
    if_false]

end ModelsRead

theorem readModels_eq_ok_iff {registry next : Registry} {number : Nat} :
    readModels registry number content = .ok next ↔ ModelsRead registry next number content := by
  induction content generalizing registry number with
  | nil => rw [ModelsRead.nil_iff, readModels, Except.ok.injEq]
  | cons item rest ih =>
    rw [readModels]
    split
    next named =>
      rw [ModelsRead.cons_of_header (Content.hasTag_iff.mpr named), ih]
    next named =>
      rw [ModelsRead.cons_of_model (Content.hasTag_iff.mpr named)]
      simp only [bind_eq_ok_iff, ih]
    next notHeader notModel =>
      rw [ModelsRead.cons_of_other, ih]
      · exact Bool.eq_false_iff.mpr fun named => notHeader (Content.hasTag_iff.mp named)
      · exact Bool.eq_false_iff.mpr fun named => notModel (Content.hasTag_iff.mp named)

private theorem place_ne_nil {name : String} {model : Model} {entries : List (String × Model)} :
    Table.place name model entries ≠ [] := by
  cases entries with
  | nil => simp [Table.place]
  | cons entry rest =>
    unfold Table.place
    split
    · simp
    · split <;> simp

private theorem registerAll_ne_nil {models : Table Model} {entries : List (String × Model)}
    (some : models.entries ≠ [] ∨ entries ≠ []) : (registerAll models entries).entries ≠ [] := by
  induction entries generalizing models with
  | nil => simpa [registerAll] using some
  | cons entry rest ih => exact ih (.inl place_ne_nil)

theorem ModelsRead.isEmpty_iff {version : Option String} {registry : Registry} {number : Nat}
    (read : ModelsRead { version } registry number content) :
    registry.models.entries = [] ↔ modelElements content = [] := by
  obtain ⟨models, elements, registered⟩ := read.models
  rw [← registered]
  constructor
  · contrapose!
    intro inhabited
    refine registerAll_ne_nil (.inr fun nothing => ?_)
    have length := congrArg List.length nothing
    rw [List.length_zip, Sequence.length_of_mapM_eq_ok elements] at length
    simp [elementKeys, inhabited] at length
  · intro nothing
    simp [nothing, elementKeys, registerAll, Table.empty]

/-- A document is read to the registry of its tree models, of which there is at least one. -/
theorem readDocument_eq_ok_iff {root : Content} {registry : Registry} :
    readDocument root = .ok registry ↔
      root.tag? = some "PMML" ∧ modelElements (contentOf root) ≠ [] ∧
        ModelsRead { version := Xml.valueOf? "version" (attributesOf root) } registry 0
          (contentOf root) := by
  have tagged : root.tag?.getD "" ≠ "PMML" ↔ root.tag? ≠ some "PMML" := by
    cases root.tag? <;> simp
  unfold readDocument
  simp only [tagged]
  by_cases pmml : root.tag? = some "PMML"
  · simp only [pmml, ne_eq, not_true, if_false, true_and, bind_eq_ok_iff, readModels_eq_ok_iff]
    constructor
    · rintro ⟨filled, read, kept⟩
      split at kept
      next => cases kept
      next inhabited =>
        cases kept
        rw [List.isEmpty_iff, read.isEmpty_iff] at inhabited
        exact ⟨inhabited, read⟩
    · rintro ⟨inhabited, read⟩
      refine ⟨registry, read, ?_⟩
      rw [if_neg]
      · rfl
      · rwa [List.isEmpty_iff, read.isEmpty_iff]
  · simp only [pmml, ne_eq, not_false_eq_true, if_true, false_and, iff_false]
    exact fun impossible => nomatch impossible

end Pmml
end DecisionTree
