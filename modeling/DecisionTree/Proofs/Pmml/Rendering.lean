import DecisionTree.Proofs.Number.Notation
import DecisionTree.Proofs.Pmml.Array
import DecisionTree.Proofs.Pmml.Document
import DecisionTree.Proofs.Pmml.Registration

/-!
Models written as elements, and read back. A rendering has every keyword in its canonical spelling,
every number as its shortest text and every set in quotes. The predicate, the distribution entries
and the children of a node may be mixed in any way that keeps the order of the entries and that of
the children. From every rendering the reader makes the model again, up to the last bit of its
numbers.
-/

namespace DecisionTree

/-- The elements of three lists in one, those of each list in their order. -/
inductive Interleaves {α : Type} : List α → List α → List α → List α → Prop
  | nil : Interleaves [] [] [] []
  | first {x : α} {xs ys zs mixed : List α} (rest : Interleaves xs ys zs mixed) :
      Interleaves (x :: xs) ys zs (x :: mixed)
  | second {y : α} {xs ys zs mixed : List α} (rest : Interleaves xs ys zs mixed) :
      Interleaves xs (y :: ys) zs (y :: mixed)
  | third {z : α} {xs ys zs mixed : List α} (rest : Interleaves xs ys zs mixed) :
      Interleaves xs ys (z :: zs) (z :: mixed)

namespace Interleaves

variable {α : Type} {xs ys zs mixed : List α} {kind : α → Bool}

private theorem rotate (interleaves : Interleaves xs ys zs mixed) : Interleaves ys zs xs mixed := by
  induction interleaves with
  | nil => exact .nil
  | first _ ih => exact .third ih
  | second _ ih => exact .first ih
  | third _ ih => exact .second ih

theorem mem_iff (interleaves : Interleaves xs ys zs mixed) {x : α} :
    x ∈ mixed ↔ x ∈ xs ∨ x ∈ ys ∨ x ∈ zs := by
  induction interleaves with
  | nil => simp
  | first _ ih | second _ ih | third _ ih =>
    simp only [List.mem_cons, ih]
    tauto

/-- What is of a kind that only one list has comes out in the order of that list. -/
theorem filter_eq (interleaves : Interleaves xs ys zs mixed) (inside : ∀ x ∈ xs, kind x = true)
    (outside : ∀ x, x ∈ ys ∨ x ∈ zs → kind x = false) : mixed.filter kind = xs := by
  induction interleaves with
  | nil => rfl
  | first _ ih =>
    rw [List.filter_cons_of_pos (inside _ List.mem_cons_self),
      ih (fun x member => inside x (List.mem_cons_of_mem _ member)) outside]
  | second _ ih =>
    have other := outside _ (.inl List.mem_cons_self)
    rw [List.filter_cons_of_neg (by simp [other])]
    exact ih inside fun x member => outside x (member.imp_left (List.mem_cons_of_mem _))
  | third _ ih =>
    have other := outside _ (.inr List.mem_cons_self)
    rw [List.filter_cons_of_neg (by simp [other])]
    exact ih inside fun x member => outside x (member.imp_right (List.mem_cons_of_mem _))

end Interleaves

namespace Pmml

open Xml (Content Attribute)
open Sequence (mapM_eq_ok_iff Gathers)
open Vocabulary (spelling spells_spelling)

def assign (key value : String) : Attribute :=
  ⟨⟨"", key⟩, value⟩

/-- An attribute that is left out where there is no value. -/
def assign? (key : String) (value : Option String) : List Attribute :=
  value.toList.map (assign key)

def element (tag : String) (attributes : List Attribute) (content : List Content) : Content :=
  .element ⟨"", tag⟩ attributes content

def renderArray (values : List String) : Content :=
  element "Array" [assign "type" "string"]
    (if values.isEmpty then [] else [.text (arrayText values)])

mutual

def renderPredicate : Predicate → Content
  | .always => element "True" [] []
  | .never => element "False" [] []
  | .compare field operator literal =>
    element "SimplePredicate"
      (assign "field" field :: assign "operator" (spelling operator) ::
        assign? "value" literal) []
  | .member field operator literals =>
    element "SimpleSetPredicate"
      [assign "field" field, assign "booleanOperator" (spelling operator)]
      [renderArray literals]
  | .compound operator operands =>
    element "CompoundPredicate" [assign "booleanOperator" (spelling operator)]
      (renderOperands operands)

def renderOperands : List Predicate → List Content
  | [] => []
  | operand :: rest => renderPredicate operand :: renderOperands rest

end

def renderDistribution (entry : Distribution) : Content :=
  element "ScoreDistribution"
    (assign "value" entry.value :: assign "recordCount" (Number.display entry.recordCount) ::
      assign? "confidence" (entry.confidence.map Number.display)) []

def nodeAttributes (node : Node) : List Attribute :=
  assign? "id" node.id ++ assign? "score" node.score ++
    assign? "recordCount" (node.recordCount.map Number.display)

/-- The element stands for the node, with everything below it. -/
inductive NodeRendering : Node → Content → Prop
  | intro {node : Node} {children content : List Content}
      (below : List.Forall₂ NodeRendering node.children children)
      (mixed : Interleaves [renderPredicate node.predicate]
        (node.distributions.map renderDistribution) children content) :
      NodeRendering node (element "Node" (nodeAttributes node) content)

def renderField (field : MiningField) : Content :=
  element "MiningField" (assign "name" field.name :: assign? "usageType" field.usage) []

def modelAttributes (model : Model) : List Attribute :=
  assign? "modelName" model.name ++ assign? "functionName" model.function ++
    [assign "splitCharacteristic" (spelling model.split),
      assign "missingValueStrategy" (spelling model.strategies.missingValue),
      assign "noTrueChildStrategy" (spelling model.strategies.noTrueChild)]

inductive ModelRendering : Model → Content → Prop
  | intro {model : Model} {root : Content} (rendered : NodeRendering model.root root) :
      ModelRendering model (element "TreeModel" (modelAttributes model)
        [element "MiningSchema" [] (model.fields.map renderField), root])

@[simp] theorem valueOf?_nil (key : String) : Xml.valueOf? key [] = none := rfl

@[simp] theorem valueOf?_assign (key other value : String) (rest : List Attribute) :
    Xml.valueOf? key (assign other value :: rest) =
      if other = key then some value else Xml.valueOf? key rest := by
  unfold Xml.valueOf?
  rw [List.find?_cons]
  by_cases same : other = key
  · simp [assign, same]
  · have differs : ((⟨"", other⟩ : Xml.Name) == ⟨"", key⟩) = false := by simp [same]
    simp [assign, same, differs]

@[simp] theorem valueOf?_assign?_append (key other : String) (value : Option String)
    (rest : List Attribute) :
    Xml.valueOf? key (assign? other value ++ rest) =
      if other = key then value.or (Xml.valueOf? key rest) else Xml.valueOf? key rest := by
  cases value with
  | none => simp [assign?]
  | some value =>
    change Xml.valueOf? key (assign other value :: rest) = _
    simp

@[simp] theorem valueOf?_assign? (key other : String) (value : Option String) :
    Xml.valueOf? key (assign? other value) = if other = key then value else none := by
  have appended := valueOf?_assign?_append key other value []
  simpa using appended

/-- A number is read back from its text. -/
theorem optionalNumber_display {element key : String} {attributes : List Attribute}
    {number : Option Float} (finite : ∀ x ∈ number, x.isFinite = true)
    (written : Xml.valueOf? key attributes = number.map Number.display) :
    optionalNumber element key attributes = .ok number := by
  refine optional_eq_ok_iff.mpr ?_
  cases number with
  | none => exact .inl ⟨written, rfl⟩
  | some x =>
    have finite : x.isFinite = true := finite x rfl
    refine .inr ⟨Number.display x, x, written, ?_, rfl⟩
    rw [Number.trim_display finite, Number.read?_display finite]

/-- A keyword is read back from its canonical spelling. -/
theorem optionalKeyword_spelling {α : Type} [Vocabulary α]
    {read : String → Except UnknownStrategy α}
    (reads : ∀ keyword member, read keyword = .ok member ↔ Vocabulary.Spells member keyword)
    {key : String} {attributes : List Attribute} {member : α}
    (written : Xml.valueOf? key attributes = some (spelling member)) :
    optionalKeyword read key attributes = .ok (some member) :=
  (optionalKeyword_eq_ok_iff reads).mpr
    (.inr ⟨_, member, written, spells_spelling member, rfl⟩)

theorem renderOperands_eq_map (operands : List Predicate) :
    renderOperands operands = operands.map renderPredicate := by
  induction operands with
  | nil => rfl
  | cons operand rest ih => rw [renderOperands, ih, List.map_cons]

theorem renderPredicate_tag (predicate : Predicate) :
    ∃ tag ∈ predicateTags, (renderPredicate predicate).tag? = some tag := by
  cases predicate with
  | always => exact ⟨"True", by decide, rfl⟩
  | never => exact ⟨"False", by decide, rfl⟩
  | compare => exact ⟨"SimplePredicate", by decide, rfl⟩
  | member => exact ⟨"SimpleSetPredicate", by decide, rfl⟩
  | compound => exact ⟨"CompoundPredicate", by decide, rfl⟩

/-- The values of a set, if the predicate looks a field up in one. -/
def setValues : Predicate → List String
  | .member _ _ literals => literals
  | _ => []

/-- Every value of a set in the predicate can be written in quotes. -/
def QuotableSets (predicate : Predicate) : Prop :=
  ∀ part ∈ predicate.parts, ∀ value ∈ setValues part, Quotable value.toList

instance (predicate : Predicate) : Decidable (QuotableSets predicate) :=
  inferInstanceAs (Decidable (∀ part ∈ predicate.parts, ∀ value ∈ setValues part, _))

private theorem leadingText?_renderArray {values : List String}
    (quotable : ∀ value ∈ values, Quotable value.toList) :
    arrayValues ((Xml.leadingText? (contentOf (renderArray values))).getD "") = values := by
  cases values with
  | nil => rfl
  | cons value rest => exact arrayValues_arrayText quotable

theorem readPredicate_renderPredicate {predicate : Predicate} (formed : predicate.WellFormed)
    (sets : QuotableSets predicate) :
    readPredicate (renderPredicate predicate) = .ok predicate := by
  induction predicate using Predicate.induction with
  | always => exact readPredicate_always rfl
  | never => exact readPredicate_never rfl
  | compare field operator literal =>
    have proper : operator.requiresLiteral = literal.isSome :=
      beq_iff_eq.mp (formed _ (Predicate.self_mem_parts _))
    rw [readPredicate_comparison rfl, readComparison_eq_ok_iff]
    refine ⟨field, operator, literal, ?_, ⟨_, ?_, spells_spelling operator⟩, ?_, rfl⟩
    · simp [renderPredicate, element, attributesOf]
    · simp [renderPredicate, element, attributesOf]
    · cases literal with
      | none => simp [proper]
      | some literal => simp [proper, renderPredicate, element, attributesOf]
  | member field operator literals =>
    have quotable : ∀ literal ∈ literals, Quotable literal.toList :=
      sets _ (Predicate.self_mem_parts _)
    rw [readPredicate_membership rfl, readMembership_eq_ok_iff]
    refine ⟨field, operator, renderArray literals, ?_, ⟨_, ?_, spells_spelling operator⟩, rfl, ?_⟩
    · simp [renderPredicate, element, attributesOf]
    · simp [renderPredicate, element, attributesOf]
    · rw [leadingText?_renderArray quotable]
  | compound operator operands ih =>
    obtain ⟨inhabited, formed⟩ := Predicate.wellFormed_compound.mp formed
    have sets := (Predicate.forall_parts_compound.mp sets).2
    have apart : ∀ tag ∈ predicateTags, (tag != "Extension") = true := by decide
    have chosen : (operands.map renderPredicate).filter isOperand =
        operands.map renderPredicate := by
      rw [List.filter_eq_self]
      intro item member
      obtain ⟨operand, -, rfl⟩ := List.mem_map.mp member
      obtain ⟨tag, among, named⟩ := renderPredicate_tag operand
      rw [isOperand_of_tag named, apart tag among]
    refine (readPredicate_compound_eq_ok_iff rfl).mpr
      ⟨operator, operands, ⟨_, rfl, spells_spelling operator⟩, ?_, inhabited, rfl⟩
    change ((renderOperands operands).filter isOperand).mapM readPredicate = _
    rw [renderOperands_eq_map, chosen, mapM_eq_ok_iff, List.map_map]
    exact List.map_congr_left fun operand member =>
      ih operand member (formed operand member) (sets operand member)

/-- The numbers of the entry are finite. -/
structure FiniteEntry (entry : Distribution) : Prop where
  recordCount : entry.recordCount.isFinite = true
  confidence : ∀ x ∈ entry.confidence, x.isFinite = true

/-- The node itself can be written: its predicate is well formed, and its numbers are finite. -/
structure Renderable (node : Node) : Prop where
  predicate : node.predicate.WellFormed
  sets : QuotableSets node.predicate
  recordCount : ∀ x ∈ node.recordCount, x.isFinite = true
  distributions : ∀ entry ∈ node.distributions, FiniteEntry entry

theorem readDistribution_renderDistribution {entry : Distribution} (finite : FiniteEntry entry) :
    readDistribution (attributesOf (renderDistribution entry)) = .ok entry := by
  refine readDistribution_eq_ok_iff.mpr ⟨?_, ⟨entry.confidence, ?_, ?_⟩, ?_⟩
  · refine optionalNumber_display ?_ ?_
    · rintro _ ⟨⟩
      exact finite.recordCount
    · simp [renderDistribution, element, attributesOf]
  · refine optionalNumber_display finite.confidence ?_
    simp [renderDistribution, element, attributesOf]
  · cases stated : entry.confidence with
    | none =>
      refine optionalNumber_display (by simp) ?_
      simp [renderDistribution, element, attributesOf]
    | some confidence => rfl
  · simp [renderDistribution, element, attributesOf]

theorem NodeRendering.tag {node : Node} {item : Content} (rendered : NodeRendering node item) :
    item.tag? = some "Node" := by
  cases rendered
  rfl

private theorem tag_of_renderings {nodes : List Node} {items : List Content}
    (rendered : List.Forall₂ NodeRendering nodes items) :
    ∀ item ∈ items, item.tag? = some "Node" := by
  induction rendered with
  | nil => exact fun _ absent => nomatch absent
  | cons first _ ih => exact List.forall_mem_cons.mpr ⟨first.tag, ih⟩

theorem map_readNode_rendering {nodes : List Node} {items : List Content}
    (each : ∀ node ∈ nodes, ∀ item, NodeRendering node item → readNode item = .ok node)
    (rendered : List.Forall₂ NodeRendering nodes items) :
    items.map readNode = nodes.map .ok := by
  induction rendered with
  | nil => rfl
  | cons first _ ih =>
    obtain ⟨head, tail⟩ := List.forall_mem_cons.mp each
    rw [List.map_cons, List.map_cons, head _ first, ih tail]

/-- However the parts of a node are mixed, they are sorted out. -/
theorem sorted_of_interleaves {predicates entries children content : List Content}
    (predicateTag : ∀ item ∈ predicates, ∃ tag ∈ predicateTags, item.tag? = some tag)
    (entryTag : ∀ item ∈ entries, item.tag? = some "ScoreDistribution")
    (childTag : ∀ item ∈ children, item.tag? = some "Node")
    (mixed : Interleaves predicates entries children content) :
    KnownParts content ∧ content.filter isPredicateElement = predicates ∧
      content.filter (·.hasTag "ScoreDistribution") = entries ∧
      content.filter (·.hasTag "Node") = children := by
  have predicate (item : Content) (member : item ∈ predicates) :=
    have ⟨_, among, named⟩ := predicateTag item member
    kind_of_predicate named among
  have entry (item : Content) (member : item ∈ entries) :=
    kind_of_distribution (entryTag item member)
  have child (item : Content) (member : item ∈ children) :=
    kind_of_child (childTag item member)
  refine ⟨fun item member tag named => ?_, mixed.filter_eq (fun item member => ?_) ?_,
    mixed.rotate.filter_eq (fun item member => ?_) ?_,
    mixed.rotate.rotate.filter_eq (fun item member => ?_) ?_⟩
  · have known : ∀ tag ∈ "ScoreDistribution" :: "Node" :: predicateTags, tag ∈ nodeTags := by decide
    apply known
    rcases mixed.mem_iff.mp member with chosen | counted | below
    · obtain ⟨own, among, ownNamed⟩ := predicateTag item chosen
      cases named.symm.trans ownNamed
      simp [among]
    · cases named.symm.trans (entryTag item counted)
      simp
    · cases named.symm.trans (childTag item below)
      simp
  · exact (predicate item member).1
  · rintro item (member | member)
    · exact (entry item member).1
    · exact (child item member).1
  · exact (entry item member).2.1
  · rintro item (member | member)
    · exact (child item member).2.1
    · exact (predicate item member).2.1
  · exact (child item member).2.2
  · rintro item (member | member)
    · exact (predicate item member).2.2
    · exact (entry item member).2.2

private theorem partsRead_of_interleaves {node : Node} {children content : List Content}
    (self : Renderable node) (nodes : children.map readNode = node.children.map .ok)
    (tags : ∀ child ∈ children, child.tag? = some "Node")
    (mixed : Interleaves [renderPredicate node.predicate]
      (node.distributions.map renderDistribution) children content) :
    PartsRead {} ⟨some node.predicate, node.distributions, node.children⟩ content := by
  have predicateTag : ∀ item ∈ [renderPredicate node.predicate],
      ∃ tag ∈ predicateTags, item.tag? = some tag :=
    List.forall_mem_singleton.mpr (renderPredicate_tag node.predicate)
  have entryTag : ∀ item ∈ node.distributions.map renderDistribution,
      item.tag? = some "ScoreDistribution" :=
    List.forall_mem_map.mpr fun _ _ => rfl
  obtain ⟨known, predicates, entries, below⟩ :=
    sorted_of_interleaves predicateTag entryTag tags mixed
  refine ⟨known, Gathers.from_nil_iff.mpr ?_, Gathers.from_nil_iff.mpr ?_,
    Gathers.from_nil_iff.mpr ?_⟩
  · rw [predicates, mapM_eq_ok_iff]
    exact congrArg (· :: []) (readPredicate_renderPredicate self.predicate self.sets)
  · rw [entries, mapM_eq_ok_iff, List.map_map]
    exact List.map_congr_left fun entry member =>
      readDistribution_renderDistribution (self.distributions entry member)
  · rwa [below, mapM_eq_ok_iff]

theorem readNode_rendering {node : Node} {item : Content}
    (renderable : ∀ inner ∈ node.nodes, Renderable inner) (rendered : NodeRendering node item) :
    readNode item = .ok node := by
  induction node using Node.induction generalizing item with
  | parent node ih =>
    have self : Renderable node := renderable node (Node.self_mem_nodes node)
    cases rendered with
    | @intro _ children content below mixed =>
      have nodes : children.map readNode = node.children.map .ok := by
        refine map_readNode_rendering (fun child member item rendered => ?_) below
        exact ih child member (fun inner deeper =>
          renderable inner (Node.nodes_subset_nodes member deeper)) rendered
      refine readNode_eq_ok_iff.mpr
        ⟨partsRead_of_interleaves self nodes (tag_of_renderings below) mixed, ?_, ?_, ?_⟩
      · refine optionalNumber_display self.recordCount ?_
        simp [nodeAttributes]
      · simp [nodeAttributes]
      · simp [nodeAttributes]

theorem readField_renderField (field : MiningField) :
    readField (renderField field) = .ok field := by
  refine readField_eq_ok_iff.mpr ⟨?_, ?_⟩
  · simp [renderField, element, attributesOf]
  · simp [renderField, element, attributesOf]

theorem fieldElements_rendering {schema root : Content} (fields : List MiningField)
    (declared : schema = element "MiningSchema" [] (fields.map renderField))
    (rootTag : root.tag? = some "Node") :
    fieldElements [schema, root] = fields.map renderField := by
  have isSchema : schema.hasTag "MiningSchema" = true := by
    rw [declared]
    rfl
  have notSchema : root.hasTag "MiningSchema" = false := by
    rw [Content.hasTag_of_tag rootTag]
    rfl
  have chosen : (fields.map renderField).filter (·.hasTag "MiningField") =
      fields.map renderField := by
    rw [List.filter_eq_self]
    intro item member
    obtain ⟨field, -, rfl⟩ := List.mem_map.mp member
    rfl
  rw [fieldElements_cons_of_schema isSchema, fieldElements_cons_of_other notSchema, declared]
  change (fields.map renderField).filter _ ++ [] = _
  rw [chosen, List.append_nil]

theorem readModel_rendering {model : Model} {item : Content}
    (renderable : ∀ node ∈ model.root.nodes, Renderable node)
    (rendered : ModelRendering model item) : readModel item = .ok model := by
  cases rendered with
  | @intro root rendered =>
    have rootTag : root.tag? = some "Node" := rendered.tag
    have isRoot : root.hasTag "Node" = true := Content.hasTag_iff.mpr rootTag
    refine readModel_eq_ok_iff.mpr ⟨?_, ?_, ⟨some model.split, ?_, rfl⟩,
      ⟨some model.strategies.missingValue, some model.strategies.noTrueChild, ?_, ?_, rfl⟩, ?_, ?_⟩
    · change (fieldElements [_, root]).mapM readField = _
      rw [fieldElements_rendering model.fields rfl rootTag, mapM_eq_ok_iff, List.map_map]
      exact List.map_congr_left fun field _ => readField_renderField field
    · change ([_, root].filter (·.hasTag "Node")).mapM readNode = _
      rw [List.filter_cons_of_neg (Bool.eq_false_iff.mp rfl), List.filter_cons_of_pos isRoot,
        mapM_eq_ok_iff]
      exact congrArg (· :: []) (readNode_rendering renderable rendered)
    · refine optionalKeyword_spelling (fun _ _ => Split.read_eq_ok_iff) ?_
      simp [element, attributesOf, modelAttributes]
    · refine optionalKeyword_spelling (fun _ _ => MissingValueStrategy.read_eq_ok_iff) ?_
      simp [element, attributesOf, modelAttributes]
    · refine optionalKeyword_spelling (fun _ _ => NoTrueChildStrategy.read_eq_ok_iff) ?_
      simp [element, attributesOf, modelAttributes]
    · simp [element, attributesOf, modelAttributes]
    · simp [element, attributesOf, modelAttributes]

/-- A document with the rendering of a model as its only tree model is read to just this model. -/
theorem readDocument_rendering {model : Model} {item root : Content}
    (renderable : ∀ node ∈ model.root.nodes, Renderable node)
    (rendered : ModelRendering model item) (tag : root.tag? = some "PMML")
    (only : modelElements (contentOf root) = [item]) :
    ∃ registry, readDocument root = .ok registry ∧
      registry.models.entries = [(model.name.getD "model-0", model)] := by
  have read : readModel item = .ok model := readModel_rendering renderable rendered
  have key : elementKey 0 item = model.name.getD "model-0" := by
    rw [elementKey, (readModel_eq_ok_iff.mp read).2.2.2.2.1]
    rfl
  have keys : elementKeys 0 (modelElements (contentOf root)) = [model.name.getD "model-0"] := by
    rw [only, elementKeys_cons, key]
    rfl
  refine ⟨⟨_, _, Table.empty.insert (model.name.getD "model-0") model⟩,
    readDocument_eq_ok_iff.mpr ⟨tag, by simp [only], ?_, ?_, ⟨[model], ?_, ?_⟩, rfl, rfl⟩, rfl⟩
  · rw [keys]
    exact List.nodup_singleton _
  · intro name _
    rfl
  · rw [only, mapM_eq_ok_iff]
    exact congrArg (· :: []) read
  · rw [keys]
    rfl

/-- Rain, or too much wind. -/
def rough : Node where
  predicate := .compound .or [
    .member "outlook" .isIn ["rain", "\"light\" snow", ""],
    .compare "wind" .greaterThan (some "5")]
  score := some "wait"

/-- A day whose wind is not known. -/
def windless : Node where
  predicate := .compare "wind" .isMissing none
  score := some "play"

/-- A tenth of a record, with two thirds as its confidence. -/
def played : Distribution :=
  ⟨"play", Float.ofBits 0x3FB999999999999A, some (Float.ofBits 0x3FE5555555555555)⟩

/-- A negative zero. -/
def waited : Distribution :=
  ⟨"wait", Float.ofBits 0x8000000000000000, none⟩

/-- Whether to play. -/
def game : Model where
  name := some "game"
  fields := [⟨"outlook", some "active"⟩, ⟨"wind", none⟩]
  root := {
    id := some "start"
    predicate := .always
    score := some "play"
    recordCount := some (Float.ofBits 0x4008000000000000)
    distributions := [played, waited]
    children := [rough, windless] }
  split := .binary
  strategies := ⟨.lastPrediction, .returnLastPrediction⟩

/-- The game as an element; its root begins with a child and ends with a distribution entry. -/
def gameElement : Content :=
  element "TreeModel" (modelAttributes game) [
    element "MiningSchema" [] (game.fields.map renderField),
    element "Node" (nodeAttributes game.root) [
      element "Node" (nodeAttributes rough) [renderPredicate rough.predicate],
      renderDistribution played,
      renderPredicate .always,
      element "Node" (nodeAttributes windless) [renderPredicate windless.predicate],
      renderDistribution waited]]

theorem readDocument_rendering_game :
    (∀ node ∈ game.root.nodes, Renderable node) ∧ ModelRendering game gameElement ∧
      ∃ registry, readDocument (element "PMML" [] [.comment, gameElement]) = .ok registry ∧
        registry.models.entries = [("game", game)] := by
  have rendered : ModelRendering game gameElement :=
    .intro (.intro (.cons (.intro .nil (.first .nil)) (.cons (.intro .nil (.first .nil)) .nil))
      (.third (.second (.first (.third (.second .nil))))))
  have root : Renderable game.root := by
    refine ⟨by decide, by decide, ?_, List.forall_mem_cons.mpr ⟨⟨by decide, ?_⟩,
      List.forall_mem_cons.mpr ⟨⟨by decide, fun _ absent => nomatch absent⟩,
        fun _ absent => nomatch absent⟩⟩⟩
    · rintro _ ⟨⟩
      decide
    · rintro _ ⟨⟩
      decide
  have leaf (node : Node) (formed : node.predicate.WellFormed)
      (sets : QuotableSets node.predicate) (uncounted : node.recordCount = none)
      (single : node.distributions = []) : Renderable node := by
    refine ⟨formed, sets, ?_, ?_⟩
    · simp [uncounted]
    · simp [single]
  have renderable : ∀ node ∈ game.root.nodes, Renderable node :=
    List.forall_mem_cons.mpr ⟨root, List.forall_mem_cons.mpr
      ⟨leaf rough (by decide) (by decide) rfl rfl, List.forall_mem_cons.mpr
        ⟨leaf windless (by decide) (by decide) rfl rfl, fun _ absent => nomatch absent⟩⟩⟩
  exact ⟨renderable, rendered, readDocument_rendering renderable rendered rfl rfl⟩

end Pmml
end DecisionTree
