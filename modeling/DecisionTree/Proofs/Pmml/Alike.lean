import DecisionTree.Proofs.Model.Sets
import DecisionTree.Proofs.Pmml.Reading

/-!
What readers look at: the names and attributes of elements, the elements in them that are no
extensions, and of an array the values in its leading text. Elements in which all this is the same
are alike, whatever else stands in them. Arrays need not have the same values for that, but values
that a change makes the same; alike elements then fail for the same reason, or are read to results
that are the same after this change of their sets.
-/

namespace DecisionTree.Pmml

open Xml (Content Attribute)
open Sequence (map_bind_congr map_bind_congr_right none_or_some_of_map_eq)

variable {change : List String → List String} {item other : Content}
  {content others items : List Content}

/-- The elements among content that readers look at: all but extensions. -/
def relevant (content : List Content) : List Content :=
  content.filter isOperand

/-- The values that are read from the content of an array. -/
def valuesIn (content : List Content) : List String :=
  arrayValues ((Xml.leadingText? content).getD "")

/-- Elements that no reader tells apart, up to a change of the values in arrays. -/
inductive Alike (change : List String → List String) : Content → Content → Prop
  | intro {name : Xml.Name} {attributes : List Attribute} {content others : List Content}
      (each : List.Forall₂ (Alike change) (relevant content) (relevant others))
      (values : name.localName = "Array" → change (valuesIn content) = change (valuesIn others)) :
      Alike change (.element name attributes content) (.element name attributes others)

namespace Alike

theorem tag (alike : Alike change item other) : item.tag? = other.tag? := by
  cases alike with
  | intro => rfl

theorem attributes (alike : Alike change item other) : attributesOf item = attributesOf other := by
  cases alike with
  | intro => rfl

theorem contents (alike : Alike change item other) :
    List.Forall₂ (Alike change) (relevant (contentOf item)) (relevant (contentOf other)) := by
  cases alike with
  | intro each _ => exact each

private theorem values (alike : Alike change item other) (array : item.hasTag "Array" = true) :
    change (valuesIn (contentOf item)) = change (valuesIn (contentOf other)) := by
  cases alike with
  | intro _ values => exact values (Option.some.inj (Content.hasTag_iff.mp array))

end Alike

theorem relevant_cons_of_pos (chosen : isOperand item = true) :
    relevant (item :: content) = item :: relevant content :=
  List.filter_cons_of_pos chosen

theorem relevant_cons_of_neg (skipped : isOperand item = false) :
    relevant (item :: content) = relevant content :=
  List.filter_cons_of_neg (Bool.eq_false_iff.mp skipped)

/-- What readers skip is no element, or an extension. -/
theorem tag_of_skipped (skipped : isOperand item = false) :
    item.tag? = none ∨ item.tag? = some "Extension" := by
  cases named : item.tag? with
  | none => exact .inl rfl
  | some tag =>
    rw [isOperand_of_tag named, bne_eq_false_iff_eq] at skipped
    exact .inr (congrArg some skipped)

theorem mem_of_mem_relevant (member : item ∈ relevant content) : item ∈ content :=
  List.mem_of_mem_filter member

/-- A reader that goes on behind what is skipped as if it were not there reads the same without
it. -/
theorem read_relevant {State Result : Type} (read : State → List Content → Result)
    (skips : ∀ state item rest, isOperand item = false → read state (item :: rest) = read state rest)
    (goesOn : ∀ state item rest others, (∀ later, read later rest = read later others) →
      read state (item :: rest) = read state (item :: others))
    (state : State) (content : List Content) : read state (relevant content) = read state content := by
  induction content generalizing state with
  | nil => rfl
  | cons item rest ih =>
    cases chosen : isOperand item with
    | true =>
      rw [relevant_cons_of_pos chosen]
      exact goesOn state item (relevant rest) rest ih
    | false => rw [relevant_cons_of_neg chosen, ih, skips state item rest chosen]

theorem find?_array_relevant (content : List Content) :
    (relevant content).find? (·.hasTag "Array") = content.find? (·.hasTag "Array") := by
  rw [relevant, List.find?_filter]
  congr 1
  funext item
  rw [Bool.eq_iff_iff, decide_eq_true_iff, and_iff_right_iff_imp]
  intro array
  exact isOperand_of_tag (Content.hasTag_iff.mp array)

def valuesOf? (content : List Content) : Option (List String) :=
  (content.find? (·.hasTag "Array")).map (valuesIn ∘ contentOf)

theorem valuesOf?_relevant (content : List Content) :
    valuesOf? (relevant content) = valuesOf? content := by
  rw [valuesOf?, find?_array_relevant, valuesOf?]

theorem valuesOf?_of_alike (each : List.Forall₂ (Alike change) items others) :
    (valuesOf? items).map change = (valuesOf? others).map change := by
  unfold valuesOf?
  induction each with
  | nil => rfl
  | @cons item other _ _ alike _ ih =>
    rw [List.find?_cons, List.find?_cons, Content.hasTag, Content.hasTag, ← alike.tag]
    cases array : item.tag? == some "Array" with
    | true => exact congrArg some (alike.values array)
    | false => exact ih

theorem mapM_of_alike {α β : Type} {read : Content → Except LoadError α} {changed : α → β}
    (each : List.Forall₂ (Alike change) items others)
    (same : ∀ item ∈ items, ∀ other, Alike change item other →
      (read item).map changed = (read other).map changed) :
    (items.mapM read).map (List.map changed) = (others.mapM read).map (List.map changed) := by
  induction each with
  | nil => rfl
  | cons alike _ ih =>
    obtain ⟨head, tail⟩ := List.forall_mem_cons.mp same
    rw [List.mapM_cons, List.mapM_cons]
    apply map_bind_congr (head _ alike)
    intro first second equal
    apply map_bind_congr (ih tail)
    intro rest remaining equals
    exact congrArg Except.ok (congrArg₂ List.cons equal equals)

private theorem readMembership_eq (attributes : List Attribute) (content : List Content) :
    readMembership attributes content = (do
      let field ← required "SimpleSetPredicate" "field" attributes
      let keyword ← required "SimpleSetPredicate" "booleanOperator" attributes
      let operator ← readOperator Membership.read keyword
      match valuesOf? content with
      | none => throw (.missingElement "SimpleSetPredicate" "Array")
      | some values => return .member field operator values) := by
  unfold readMembership valuesOf?
  rw [arrayOf?_eq_map]
  cases content.find? (·.hasTag "Array") <;> rfl

theorem readMembership_of_alike (attributes : List Attribute)
    (values : (valuesOf? content).map change = (valuesOf? others).map change) :
    (readMembership attributes content).map (Predicate.mapSets change) =
      (readMembership attributes others).map (Predicate.mapSets change) := by
  rw [readMembership_eq, readMembership_eq]
  apply map_bind_congr_right
  intro field
  apply map_bind_congr_right
  intro keyword
  apply map_bind_congr_right
  intro operator
  rcases none_or_some_of_map_eq values with ⟨first, second⟩ | ⟨_, _, first, second, equal⟩
  · rw [first, second]
  · rw [first, second]
    exact congrArg (fun literals => Except.ok (Predicate.member field operator literals)) equal

theorem compoundOf_congr {operator : Connective} {operands remaining : List Predicate}
    (same : operands.map (Predicate.mapSets change) = remaining.map (Predicate.mapSets change)) :
    (compoundOf operator operands).map (Predicate.mapSets change) =
      (compoundOf operator remaining).map (Predicate.mapSets change) := by
  have compound (operands : List Predicate) :
      (compoundOf operator operands).map (Predicate.mapSets change) =
        compoundOf operator (operands.map (Predicate.mapSets change)) := by
    cases operands with
    | nil => rfl
    | cons operand rest =>
      rw [compoundOf, compoundOf]
      simp [Except.map, Predicate.mapSets, Predicate.mapSetsOfAll_eq_map]
  rw [compound, compound, same]

theorem readPredicate_of_alike (alike : Alike change item other) :
    (readPredicate item).map (Predicate.mapSets change) =
      (readPredicate other).map (Predicate.mapSets change) := by
  induction item using Content.induction generalizing other with
  | text | comment | instruction => cases alike
  | element name attributes content ih =>
    cases alike with
    | @intro _ _ _ others each values =>
      rw [readPredicate, readPredicate]
      split
      next => rfl
      next => rfl
      next => rfl
      next =>
        apply readMembership_of_alike
        rw [← valuesOf?_relevant, ← valuesOf?_relevant others, valuesOf?_of_alike each]
      next =>
        apply map_bind_congr_right
        intro operator
        rw [readOperands_eq_mapM, readOperands_eq_mapM]
        apply map_bind_congr (mapM_of_alike each _)
        · intro operands remaining same
          exact compoundOf_congr same
        · intro item member other alike
          exact ih item (mem_of_mem_relevant member) alike
      next => rfl

namespace NodeParts

variable {parts next : NodeParts}

/-- The parts of a node with their sets of literals changed. -/
def mapSets (change : List String → List String) (parts : NodeParts) : NodeParts :=
  { parts with
    predicate := parts.predicate.map (Predicate.mapSets change)
    children := parts.children.map (Node.mapSets change) }

theorem mapSets_eq_iff : parts.mapSets change = next.mapSets change ↔
    parts.predicate.map (Predicate.mapSets change) =
        next.predicate.map (Predicate.mapSets change) ∧
      parts.distributions = next.distributions ∧
      parts.children.map (Node.mapSets change) = next.children.map (Node.mapSets change) := by
  simp only [mapSets, NodeParts.mk.injEq]

theorem addChild_congr {child sibling : Node} (same : parts.mapSets change = next.mapSets change)
    (equal : child.mapSets change = sibling.mapSets change) :
    (parts.addChild child).mapSets change = (next.addChild sibling).mapSets change := by
  obtain ⟨predicate, distributions, children⟩ := mapSets_eq_iff.mp same
  refine mapSets_eq_iff.mpr ⟨predicate, distributions, ?_⟩
  rw [addChild, addChild, List.map_append, List.map_append, children, List.map_singleton, equal]
  rfl

theorem addDistribution_congr (same : parts.mapSets change = next.mapSets change)
    (alike : Alike change item other) :
    (parts.addDistribution item).map (mapSets change) =
      (next.addDistribution other).map (mapSets change) := by
  obtain ⟨predicate, distributions, children⟩ := mapSets_eq_iff.mp same
  rw [addDistribution, addDistribution, alike.attributes]
  cases readDistribution (attributesOf other) with
  | error => rfl
  | ok entry =>
    apply congrArg Except.ok
    exact mapSets_eq_iff.mpr ⟨predicate, congrArg (· ++ [entry]) distributions, children⟩

theorem addPredicate_congr (tag : String) (same : parts.mapSets change = next.mapSets change)
    (alike : Alike change item other) :
    (parts.addPredicate tag item).map (mapSets change) =
      (next.addPredicate tag other).map (mapSets change) := by
  obtain ⟨predicate, distributions, children⟩ := mapSets_eq_iff.mp same
  have read := readPredicate_of_alike alike
  rw [addPredicate, addPredicate]
  rcases none_or_some_of_map_eq predicate with ⟨first, second⟩ | ⟨_, _, first, second, -⟩
  · rw [first, second]
    apply map_bind_congr read
    intro predicate instead equal
    apply congrArg Except.ok
    exact mapSets_eq_iff.mpr ⟨congrArg some equal, distributions, children⟩
  · rw [first, second]

theorem toNode_congr (attributes : List Attribute)
    (same : parts.mapSets change = next.mapSets change) :
    (parts.toNode attributes).map (Node.mapSets change) =
      (next.toNode attributes).map (Node.mapSets change) := by
  obtain ⟨predicate, distributions, children⟩ := mapSets_eq_iff.mp same
  rw [toNode, toNode]
  rcases none_or_some_of_map_eq predicate with ⟨first, second⟩ | ⟨_, _, first, second, equal⟩
  · rw [first, second]
  · rw [first, second]
    apply map_bind_congr_right
    intro recordCount
    apply congrArg Except.ok
    rw [Node.mapSets_eq, Node.mapSets_eq, distributions, children, equal]

end NodeParts

theorem readParts_relevant (parts : NodeParts) (content : List Content) :
    readParts parts (relevant content) = readParts parts content := by
  refine read_relevant readParts ?_ ?_ parts content
  · intro parts item rest skipped
    rw [readParts]
    rcases tag_of_skipped skipped with named | named
    · rw [named]
    · rw [named]
      rfl
  · intro parts item rest others same
    simp only [readParts, same]

theorem readParts_of_alike {parts next : NodeParts}
    (each : List.Forall₂ (Alike change) items others)
    (same : parts.mapSets change = next.mapSets change)
    (nodes : ∀ item ∈ items, ∀ other, Alike change item other →
      (readNode item).map (Node.mapSets change) = (readNode other).map (Node.mapSets change)) :
    (readParts parts items).map (NodeParts.mapSets change) =
      (readParts next others).map (NodeParts.mapSets change) := by
  induction each generalizing parts next with
  | nil => exact congrArg Except.ok same
  | @cons item other _ _ alike _ ih =>
    obtain ⟨head, tail⟩ := List.forall_mem_cons.mp nodes
    rw [readParts, readParts, ← alike.tag]
    split
    next => exact ih same tail
    next =>
      apply map_bind_congr (head other alike)
      intro child sibling equal
      exact ih (NodeParts.addChild_congr same equal) tail
    next =>
      apply map_bind_congr (NodeParts.addDistribution_congr same alike)
      intro between instead equal
      exact ih equal tail
    next tag _ _ _ =>
      split
      next =>
        apply map_bind_congr (NodeParts.addPredicate_congr tag same alike)
        intro between instead equal
        exact ih equal tail
      next =>
        split
        next => exact ih same tail
        next => rfl

theorem readNode_of_alike (alike : Alike change item other) :
    (readNode item).map (Node.mapSets change) = (readNode other).map (Node.mapSets change) := by
  induction item using Content.induction generalizing other with
  | text | comment | instruction => cases alike
  | element name attributes content ih =>
    cases alike with
    | @intro _ _ _ others each values =>
      rw [readNode, readNode, ← readParts_relevant, ← readParts_relevant {} others]
      apply map_bind_congr (readParts_of_alike each rfl _)
      · intro parts next same
        exact NodeParts.toNode_congr attributes same
      · intro item member other alike
        exact ih item (mem_of_mem_relevant member) alike

theorem readFields_relevant (content : List Content) :
    readFields (relevant content) = readFields content := by
  refine read_relevant (fun (_ : Unit) => readFields) ?_ ?_ () content
  · intro _ item rest skipped
    rw [readFields]
    rcases tag_of_skipped skipped with named | named
    · simp [named]
    · simp [named]
  · intro _ item rest others same
    rw [readFields, readFields, same ()]

theorem readFields_of_alike (each : List.Forall₂ (Alike change) items others) :
    readFields items = readFields others := by
  induction each with
  | nil => rfl
  | cons alike _ ih => rw [readFields, readFields, alike.tag, alike.attributes, ih]

/-- The parts of a model with their sets of literals changed. -/
def ModelParts.mapSets (change : List String → List String) (parts : ModelParts) : ModelParts :=
  { parts with root := parts.root.map (Node.mapSets change) }

theorem ModelParts.mapSets_eq_iff {parts next : ModelParts} :
    parts.mapSets change = next.mapSets change ↔ parts.fields = next.fields ∧
      parts.root.map (Node.mapSets change) = next.root.map (Node.mapSets change) := by
  simp only [mapSets, ModelParts.mk.injEq]

theorem readModelParts_relevant (parts : ModelParts) (content : List Content) :
    readModelParts parts (relevant content) = readModelParts parts content := by
  refine read_relevant readModelParts ?_ ?_ parts content
  · intro parts item rest skipped
    rw [readModelParts]
    rcases tag_of_skipped skipped with named | named
    · rw [named]
    · rw [named]
      rfl
  · intro parts item rest others same
    simp only [readModelParts, same]

theorem readModelParts_of_alike {parts next : ModelParts}
    (each : List.Forall₂ (Alike change) items others)
    (same : parts.mapSets change = next.mapSets change) :
    (readModelParts parts items).map (ModelParts.mapSets change) =
      (readModelParts next others).map (ModelParts.mapSets change) := by
  induction each generalizing parts next with
  | nil => exact congrArg Except.ok same
  | @cons item other _ _ alike _ ih =>
    obtain ⟨fields, root⟩ := ModelParts.mapSets_eq_iff.mp same
    rw [readModelParts, readModelParts, ← alike.tag]
    split
    next =>
      have declared : readFields (contentOf item) = readFields (contentOf other) := by
        rw [← readFields_relevant, ← readFields_relevant (contentOf other),
          readFields_of_alike alike.contents]
      rw [declared]
      apply map_bind_congr_right
      intro more
      exact ih (ModelParts.mapSets_eq_iff.mpr ⟨congrArg (· ++ more) fields, root⟩)
    next =>
      rcases none_or_some_of_map_eq root with ⟨first, second⟩ | ⟨_, _, first, second, -⟩
      · rw [first, second]
        apply map_bind_congr (readNode_of_alike alike)
        intro node instead equal
        exact ih (ModelParts.mapSets_eq_iff.mpr ⟨fields, congrArg some equal⟩)
      · rw [first, second]
    next => exact ih same

theorem readModel_of_alike (alike : Alike change item other) :
    (readModel item).map (Model.mapSets change) = (readModel other).map (Model.mapSets change) := by
  rw [readModel, readModel, ← readModelParts_relevant,
    ← readModelParts_relevant {} (contentOf other), alike.attributes]
  apply map_bind_congr (readModelParts_of_alike alike.contents rfl)
  intro parts next same
  obtain ⟨fields, root⟩ := ModelParts.mapSets_eq_iff.mp same
  rcases none_or_some_of_map_eq root with ⟨first, second⟩ | ⟨_, _, first, second, equal⟩
  · rw [first, second]
  · rw [first, second]
    apply map_bind_congr_right
    intro split
    apply map_bind_congr_right
    intro missingValue
    apply map_bind_congr_right
    intro noTrueChild
    apply congrArg Except.ok
    simp only [Model.mapSets, fields, equal]

theorem register_congr {registry next : Registry} {number : Nat} {model instead : Model}
    (same : registry.mapSets change = next.mapSets change)
    (equal : model.mapSets change = instead.mapSets change) :
    (register registry number model).map (Registry.mapSets change) =
      (register next number instead).map (Registry.mapSets change) := by
  obtain ⟨version, description, models⟩ := Registry.mapSets_eq_iff.mp same
  have named : model.name = instead.name := by
    simpa using congrArg Model.name equal
  have taken (name : String) : registry.models.contains name = next.models.contains name := by
    simpa using congrArg (·.contains name) models
  simp only [register, named, taken]
  split
  next => rfl
  next =>
    apply congrArg Except.ok
    refine Registry.mapSets_eq_iff.mpr ⟨version, description, ?_⟩
    rw [Table.map_insert, Table.map_insert, models, equal]

theorem readModels_relevant (registry : Registry) (number : Nat) (content : List Content) :
    readModels registry number (relevant content) = readModels registry number content := by
  refine read_relevant (fun (state : Registry × Nat) => readModels state.1 state.2) ?_ ?_
    (registry, number) content
  · intro state item rest skipped
    rw [readModels]
    rcases tag_of_skipped skipped with named | named
    · rw [named]
    · rw [named]
      rfl
  · intro state item rest others same
    have later (registry : Registry) (number : Nat) := same (registry, number)
    simp only [readModels, later]

theorem readModels_of_alike {registry next : Registry} {number : Nat}
    (each : List.Forall₂ (Alike change) items others)
    (same : registry.mapSets change = next.mapSets change) :
    (readModels registry number items).map (Registry.mapSets change) =
      (readModels next number others).map (Registry.mapSets change) := by
  induction each generalizing registry next number with
  | nil => exact congrArg Except.ok same
  | cons alike _ ih =>
    rw [readModels, readModels, ← alike.tag]
    split
    next =>
      obtain ⟨version, _, models⟩ := Registry.mapSets_eq_iff.mp same
      rw [alike.attributes]
      exact ih (Registry.mapSets_eq_iff.mpr ⟨version, rfl, models⟩)
    next =>
      apply map_bind_congr (readModel_of_alike alike)
      intro model instead equal
      apply map_bind_congr (register_congr same equal)
      intro registered others same
      exact ih same
    next => exact ih same

/-- Documents with alike root elements fail for the same reason, or are read to registries that are
the same after the change of their sets. -/
theorem readDocument_of_alike (alike : Alike change item other) :
    (readDocument item).map (Registry.mapSets change) =
      (readDocument other).map (Registry.mapSets change) := by
  have contents (registry : Registry) :
      (readModels registry 0 (contentOf item)).map (Registry.mapSets change) =
        (readModels registry 0 (contentOf other)).map (Registry.mapSets change) := by
    rw [← readModels_relevant, ← readModels_relevant registry 0 (contentOf other)]
    exact readModels_of_alike alike.contents rfl
  rw [readDocument, readDocument, ← alike.tag, ← alike.attributes]
  split
  next => rfl
  next =>
    apply map_bind_congr (contents _)
    intro registry next same
    obtain ⟨-, -, models⟩ := Registry.mapSets_eq_iff.mp same
    have empty : registry.models.entries.isEmpty = next.models.entries.isEmpty := by
      simpa using congrArg (·.entries.isEmpty) models
    rw [empty]
    split
    next => rfl
    next => exact congrArg Except.ok same

end DecisionTree.Pmml
