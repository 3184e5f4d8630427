import DecisionTree.Proofs.Pmml.Registration

/-!
The grammar of documents, told by what their elements have to have, and the readers as its
acceptors: a document is read to a registry exactly if it is one of the grammar. Everything that is
not an element, and every element that the grammar does not mention, may stand anywhere but among
the operands of a compound and the parts of a node.
-/

namespace DecisionTree.Pmml

open Xml (Content Attribute)
open Sequence (mapM_isOk_iff Gathers)
open Vocabulary (Spells)

variable {item root : Content} {key : String}

def Present (key : String) (item : Content) : Prop :=
  ∃ written, Xml.valueOf? key (attributesOf item) = some written

/-- The attribute is left out, or its value is accepted. -/
def AbsentOr (accepted : String → Prop) (key : String) (item : Content) : Prop :=
  ∀ written, Xml.valueOf? key (attributesOf item) = some written → accepted written

/-- The element has the attribute, and it spells the member of a vocabulary. -/
def Names {α : Type} [Vocabulary α] (key : String) (member : α) (item : Content) : Prop :=
  ∃ written, Xml.valueOf? key (attributesOf item) = some written ∧ Spells member written

/-- A number with blanks around it. -/
def IsFloat (written : String) : Prop :=
  ∃ x, Number.read? (Text.trim written) = some x

/-- A spelling of a member of the vocabulary, up to outer blanks and letter case. -/
def IsKeyword (α : Type) [Vocabulary α] (written : String) : Prop :=
  ∃ member : α, Spells member written

inductive IsPredicate : Content → Prop
  | always {item : Content} (tag : item.tag? = some "True") : IsPredicate item
  | never {item : Content} (tag : item.tag? = some "False") : IsPredicate item
  /-- the literal has to be there if the operator requires one -/
  | comparison {item : Content} (operator : Comparison) (tag : item.tag? = some "SimplePredicate")
      (field : Present "field" item) (named : Names "operator" operator item)
      (literal : operator.requiresLiteral → Present "value" item) : IsPredicate item
  | membership {item : Content} (operator : Membership)
      (tag : item.tag? = some "SimpleSetPredicate")
      (field : Present "field" item) (named : Names "booleanOperator" operator item)
      (array : ∃ inner ∈ contentOf item, inner.hasTag "Array") : IsPredicate item
  /-- there is an operand, and every element but an extension is one -/
  | compound {item : Content} (operator : Connective) (tag : item.tag? = some "CompoundPredicate")
      (named : Names "booleanOperator" operator item)
      (inhabited : ∃ operand ∈ contentOf item, isOperand operand)
      (operands : ∀ operand ∈ contentOf item, isOperand operand → IsPredicate operand) :
      IsPredicate item

/-- A distribution entry: the probability counts only where no confidence is stated. -/
structure IsDistribution (item : Content) : Prop where
  value : Present "value" item
  counted : Present "recordCount" item
  recordCount : AbsentOr IsFloat "recordCount" item
  confidence : AbsentOr IsFloat "confidence" item
  probability : ¬Present "confidence" item → AbsentOr IsFloat "probability" item

/-- An element that is a node: of the elements in it one is a predicate, and the others are
distribution entries, nodes, or of a kind that is skipped. -/
inductive IsNode : Content → Prop
  | intro {item : Content}
      (known : KnownParts (contentOf item))
      (single : ((contentOf item).filter isPredicateElement).length = 1)
      (predicate : ∀ part ∈ contentOf item, isPredicateElement part → IsPredicate part)
      (distributions : ∀ part ∈ contentOf item, part.hasTag "ScoreDistribution" →
        IsDistribution part)
      (children : ∀ part ∈ contentOf item, part.hasTag "Node" → IsNode part)
      (recordCount : AbsentOr IsFloat "recordCount" item) : IsNode item

/-- A tree model: it has one node. -/
structure IsModel (item : Content) : Prop where
  single : ((contentOf item).filter (·.hasTag "Node")).length = 1
  root : ∀ part ∈ contentOf item, part.hasTag "Node" → IsNode part
  fields : ∀ schema ∈ contentOf item, schema.hasTag "MiningSchema" →
    ∀ field ∈ contentOf schema, field.hasTag "MiningField" → Present "name" field
  split : AbsentOr (IsKeyword Split) "splitCharacteristic" item
  missingValue : AbsentOr (IsKeyword MissingValueStrategy) "missingValueStrategy" item
  noTrueChild : AbsentOr (IsKeyword NoTrueChildStrategy) "noTrueChildStrategy" item

/-- A document: it has tree models, and no two of them come under the same key. -/
structure IsDocument (root : Content) : Prop where
  tag : root.tag? = some "PMML"
  inhabited : ∃ item ∈ contentOf root, item.hasTag "TreeModel"
  distinct : (elementKeys 0 (modelElements (contentOf root))).Nodup
  models : ∀ item ∈ contentOf root, item.hasTag "TreeModel" → IsModel item

theorem optional_isOk_iff {α : Type} {read? : String → Option α} {element : String} :
    (∃ result, optional read? element key (attributesOf item) = .ok result) ↔
      AbsentOr (fun written => ∃ value, read? (Text.trim written) = some value) key item := by
  simp only [optional_eq_ok_iff, AbsentOr]
  cases Xml.valueOf? key (attributesOf item) with
  | none => simp
  | some written =>
    simp only [reduceCtorEq, false_and, false_or, Option.some.injEq, forall_eq']
    constructor
    · rintro ⟨_, _, value, rfl, accepted, _⟩
      exact ⟨value, accepted⟩
    · rintro ⟨value, accepted⟩
      exact ⟨some value, written, value, rfl, accepted, rfl⟩

theorem optionalNumber_isOk_iff {element : String} :
    (∃ result, optionalNumber element key (attributesOf item) = .ok result) ↔
      AbsentOr IsFloat key item :=
  optional_isOk_iff

theorem isSome_optional_iff {α : Type} {read? : String → Option α} {element : String}
    {result : Option α} (read : optional read? element key (attributesOf item) = .ok result) :
    result.isSome = true ↔ Present key item := by
  rcases optional_eq_ok_iff.mp read with ⟨absent, rfl⟩ | ⟨written, value, given, -, rfl⟩
  · simp [Present, absent]
  · simp [Present, given]

theorem readDistribution_isOk_iff :
    (∃ entry, readDistribution (attributesOf item) = .ok entry) ↔ IsDistribution item := by
  constructor
  · rintro ⟨entry, read⟩
    obtain ⟨counted, ⟨stated, given, chosen⟩, named⟩ := readDistribution_eq_ok_iff.mp read
    refine ⟨⟨_, named⟩, (isSome_optional_iff counted).mp rfl,
      optionalNumber_isOk_iff.mp ⟨_, counted⟩, optionalNumber_isOk_iff.mp ⟨_, given⟩, ?_⟩
    intro absent
    rw [if_neg (mt (isSome_optional_iff given).mp absent)] at chosen
    exact optionalNumber_isOk_iff.mp ⟨_, chosen⟩
  · intro valid
    obtain ⟨value, named⟩ := valid.value
    obtain ⟨count, counted⟩ := optionalNumber_isOk_iff.mpr valid.recordCount
    obtain ⟨recordCount, rfl⟩ :=
      Option.isSome_iff_exists.mp ((isSome_optional_iff counted).mpr valid.counted)
    obtain ⟨stated, given⟩ := optionalNumber_isOk_iff.mpr valid.confidence
    by_cases some : stated.isSome = true
    · refine ⟨⟨value, recordCount, stated⟩, readDistribution_eq_ok_iff.mpr
        ⟨counted, ⟨stated, given, ?_⟩, named⟩⟩
      rw [if_pos some]
    · have absent : ¬Present "confidence" item := mt (isSome_optional_iff given).mpr some
      obtain ⟨confidence, read⟩ := optionalNumber_isOk_iff.mpr (valid.probability absent)
      refine ⟨⟨value, recordCount, confidence⟩, readDistribution_eq_ok_iff.mpr
        ⟨counted, ⟨stated, given, ?_⟩, named⟩⟩
      rwa [if_neg some]

theorem exists_operand_iff {content : List Content} {operands : List Predicate}
    (read : (content.filter isOperand).mapM readPredicate = .ok operands) :
    operands ≠ [] ↔ ∃ operand ∈ content, isOperand operand := by
  rw [← List.length_pos_iff, Sequence.length_of_mapM_eq_ok read]
  exact List.length_filter_pos_iff

theorem isPredicate_of_read {predicate : Predicate} (read : readPredicate item = .ok predicate) :
    IsPredicate item := by
  induction item using Content.induction generalizing predicate with
  | text | comment | instruction => cases read
  | element name attributes content ih =>
    have tagged (tag : String) (named : name.localName = tag) :
        (Content.element name attributes content).tag? = some tag := congrArg some named
    rw [readPredicate] at read
    split at read
    next named => exact .always (tagged _ named)
    next named => exact .never (tagged _ named)
    next named =>
      obtain ⟨field, operator, literal, found, spelled, given, rfl⟩ :=
        readComparison_eq_ok_iff.mp read
      refine .comparison operator (tagged _ named) ⟨field, found⟩ spelled fun needed => ?_
      rw [if_pos needed] at given
      obtain ⟨literal, rfl⟩ := Option.isSome_iff_exists.mp given.1
      exact ⟨literal, given.2⟩
    next named =>
      obtain ⟨field, operator, array, found, spelled, held, rfl⟩ :=
        readMembership_eq_ok_iff.mp read
      exact .membership operator (tagged _ named) ⟨field, found⟩ spelled
        ⟨array, List.mem_of_find?_eq_some held, List.find?_some held⟩
    next named =>
      obtain ⟨operator, operands, spelled, each, inhabited, rfl⟩ :=
        (readPredicate_compound_eq_ok_iff (tagged _ named)).mp
          ((readPredicate_compound (tagged _ named)).trans read)
      refine .compound operator (tagged _ named) spelled
        ((exists_operand_iff each).mp inhabited) fun operand member chosen => ?_
      obtain ⟨predicate, inner⟩ :=
        mapM_isOk_iff.mp ⟨_, each⟩ operand (List.mem_filter.mpr ⟨member, chosen⟩)
      exact ih operand member inner
    next => cases read

theorem exists_read_of_isPredicate (valid : IsPredicate item) :
    ∃ predicate, readPredicate item = .ok predicate := by
  induction valid with
  | always tag => exact ⟨_, readPredicate_always tag⟩
  | never tag => exact ⟨_, readPredicate_never tag⟩
  | @comparison item operator tag field named literal =>
    obtain ⟨field, found⟩ := field
    rw [readPredicate_comparison tag]
    by_cases needed : operator.requiresLiteral = true
    · obtain ⟨literal, given⟩ := literal needed
      refine ⟨_, readComparison_eq_ok_iff.mpr
        ⟨field, operator, some literal, found, named, ?_, rfl⟩⟩
      rw [if_pos needed]
      exact ⟨rfl, given⟩
    · refine ⟨_, readComparison_eq_ok_iff.mpr ⟨field, operator, none, found, named, ?_, rfl⟩⟩
      rw [if_neg needed]
  | @membership item operator tag field named array =>
    obtain ⟨field, found⟩ := field
    rw [readPredicate_membership tag]
    obtain ⟨first, held⟩ := Option.isSome_iff_exists.mp (List.find?_isSome.mpr array)
    exact ⟨_, readMembership_eq_ok_iff.mpr ⟨field, operator, first, found, named, held, rfl⟩⟩
  | @compound item operator tag named inhabited operands ih =>
    obtain ⟨results, read⟩ := mapM_isOk_iff.mpr fun operand member =>
      have ⟨inside, chosen⟩ := List.mem_filter.mp member
      ih operand inside chosen
    exact ⟨_, (readPredicate_compound_eq_ok_iff tag).mpr
      ⟨operator, results, named, read, (exists_operand_iff read).mpr inhabited, rfl⟩⟩

theorem readPredicate_isOk_iff :
    (∃ predicate, readPredicate item = .ok predicate) ↔ IsPredicate item :=
  ⟨fun ⟨_, read⟩ => isPredicate_of_read read, exists_read_of_isPredicate⟩

theorem mapM_filter_isOk_iff {α β ε : Type} {kind : α → Bool} {f : α → Except ε β} {xs : List α} :
    (∃ ys, (xs.filter kind).mapM f = .ok ys) ↔ ∀ x ∈ xs, kind x = true → ∃ y, f x = .ok y := by
  simp only [mapM_isOk_iff, List.mem_filter, and_imp]

theorem isNode_of_read {node : Node} (read : readNode item = .ok node) : IsNode item := by
  induction item using Content.induction generalizing node with
  | text | comment | instruction => cases read
  | element name attributes content ih =>
    obtain ⟨⟨known, predicates, distributions, children⟩, counted, -, -⟩ :=
      readNode_eq_ok_iff.mp read
    have predicates := Gathers.from_nil_iff.mp predicates
    have distributions := mapM_filter_isOk_iff.mp ⟨_, Gathers.from_nil_iff.mp distributions⟩
    have children := mapM_filter_isOk_iff.mp ⟨_, Gathers.from_nil_iff.mp children⟩
    refine .intro known (Sequence.length_of_mapM_eq_ok predicates).symm ?_ ?_ ?_
      (optionalNumber_isOk_iff.mp ⟨_, counted⟩)
    · intro part member chosen
      exact readPredicate_isOk_iff.mp (mapM_filter_isOk_iff.mp ⟨_, predicates⟩ part member chosen)
    · intro part member chosen
      exact readDistribution_isOk_iff.mp (distributions part member chosen)
    · intro part member chosen
      obtain ⟨child, inner⟩ := children part member chosen
      exact ih part member inner

theorem exists_read_of_isNode (valid : IsNode item) : ∃ node, readNode item = .ok node := by
  induction valid with
  | @intro item known single predicate distributions _ recordCount ih =>
    cases item with
    | text | comment | instruction => cases single
    | element name attributes content =>
      obtain ⟨predicates, read⟩ := mapM_filter_isOk_iff.mpr fun part member chosen =>
        readPredicate_isOk_iff.mpr (predicate part member chosen)
      obtain ⟨predicate, rfl⟩ : ∃ predicate, predicates = [predicate] :=
        List.length_eq_one_iff.mp ((Sequence.length_of_mapM_eq_ok read).trans single)
      obtain ⟨entries, counted⟩ := mapM_filter_isOk_iff.mpr fun part member chosen =>
        readDistribution_isOk_iff.mpr (distributions part member chosen)
      obtain ⟨children, inner⟩ := mapM_filter_isOk_iff.mpr ih
      obtain ⟨count, stated⟩ := optionalNumber_isOk_iff.mpr recordCount
      refine ⟨⟨_, predicate, _, count, entries, children⟩,
        readNode_eq_ok_iff.mpr ⟨?_, stated, rfl, rfl⟩⟩
      exact ⟨known, Gathers.from_nil_iff.mpr read, Gathers.from_nil_iff.mpr counted,
        Gathers.from_nil_iff.mpr inner⟩

theorem readNode_isOk_iff : (∃ node, readNode item = .ok node) ↔ IsNode item :=
  ⟨fun ⟨_, read⟩ => isNode_of_read read, exists_read_of_isNode⟩

theorem optionalKeyword_isOk_iff {α : Type} [Vocabulary α] (item : Content) (key : String)
    {read : String → Except UnknownStrategy α}
    (reads : ∀ keyword member, read keyword = .ok member ↔ Spells member keyword) :
    (∃ result, optionalKeyword read key (attributesOf item) = .ok result) ↔
      AbsentOr (IsKeyword α) key item := by
  simp only [optionalKeyword_eq_ok_iff reads, AbsentOr, IsKeyword]
  cases Xml.valueOf? key (attributesOf item) with
  | none => simp
  | some written =>
    simp only [reduceCtorEq, false_and, false_or, Option.some.injEq, forall_eq']
    constructor
    · rintro ⟨_, _, member, rfl, spells, _⟩
      exact ⟨member, spells⟩
    · rintro ⟨member, spells⟩
      exact ⟨some member, written, member, rfl, spells, rfl⟩

theorem readField_isOk_iff :
    (∃ field, readField item = .ok field) ↔ Present "name" item := by
  simp only [readField_eq_ok_iff, Present]
  constructor
  · rintro ⟨field, given, -⟩
    exact ⟨field.name, given⟩
  · rintro ⟨name, given⟩
    exact ⟨⟨name, _⟩, given, rfl⟩

theorem fieldElements_isOk_iff {content : List Content} :
    (∃ fields, (fieldElements content).mapM readField = .ok fields) ↔
      ∀ schema ∈ content, schema.hasTag "MiningSchema" →
        ∀ field ∈ contentOf schema, field.hasTag "MiningField" → Present "name" field := by
  simp only [mapM_isOk_iff, readField_isOk_iff, fieldElements, List.mem_flatMap, List.mem_filter]
  constructor
  · intro named schema member isSchema field inside isField
    exact named field ⟨schema, ⟨member, isSchema⟩, inside, isField⟩
  · rintro named field ⟨schema, ⟨member, isSchema⟩, inside, isField⟩
    exact named schema member isSchema field inside isField

theorem readModel_isOk_iff : (∃ model, readModel item = .ok model) ↔ IsModel item := by
  have splits := optionalKeyword_isOk_iff item "splitCharacteristic"
    fun _ _ => Split.read_eq_ok_iff
  have misses := optionalKeyword_isOk_iff item "missingValueStrategy"
    fun _ _ => MissingValueStrategy.read_eq_ok_iff
  have fails := optionalKeyword_isOk_iff item "noTrueChildStrategy"
    fun _ _ => NoTrueChildStrategy.read_eq_ok_iff
  constructor
  · rintro ⟨model, read⟩
    obtain ⟨declared, found, ⟨split, splitRead, -⟩,
      ⟨missingValue, noTrueChild, missRead, failRead, -⟩, -, -⟩ := readModel_eq_ok_iff.mp read
    have roots := mapM_filter_isOk_iff.mp ⟨_, found⟩
    refine ⟨(Sequence.length_of_mapM_eq_ok found).symm, ?_, fieldElements_isOk_iff.mp ⟨_, declared⟩,
      splits.mp ⟨_, splitRead⟩, misses.mp ⟨_, missRead⟩, fails.mp ⟨_, failRead⟩⟩
    intro part member isNode
    exact readNode_isOk_iff.mp (roots part member isNode)
  · intro valid
    obtain ⟨fields, declared⟩ := fieldElements_isOk_iff.mpr valid.fields
    obtain ⟨roots, found⟩ := mapM_filter_isOk_iff.mpr fun part member isNode =>
      readNode_isOk_iff.mpr (valid.root part member isNode)
    obtain ⟨root, rfl⟩ : ∃ root, roots = [root] :=
      List.length_eq_one_iff.mp ((Sequence.length_of_mapM_eq_ok found).trans valid.single)
    obtain ⟨split, splitRead⟩ := splits.mpr valid.split
    obtain ⟨missingValue, missRead⟩ := misses.mpr valid.missingValue
    obtain ⟨noTrueChild, failRead⟩ := fails.mpr valid.noTrueChild
    exact ⟨⟨_, _, fields, root, _, _⟩,
      readModel_eq_ok_iff.mpr ⟨declared, found, ⟨split, splitRead, rfl⟩,
        ⟨missingValue, noTrueChild, missRead, failRead, rfl⟩, rfl, rfl⟩⟩

/-- A document is accepted exactly if it is one of the grammar. -/
theorem readDocument_isOk_iff (root : Content) :
    (∃ registry, readDocument root = .ok registry) ↔ IsDocument root := by
  have models : (∃ models, (modelElements (contentOf root)).mapM readModel = .ok models) ↔
      ∀ item ∈ contentOf root, item.hasTag "TreeModel" → IsModel item := by
    simp only [modelElements, mapM_filter_isOk_iff, readModel_isOk_iff]
  have inhabited : modelElements (contentOf root) ≠ [] ↔
      ∃ item ∈ contentOf root, item.hasTag "TreeModel" := by
    rw [← List.length_pos_iff]
    exact List.length_filter_pos_iff
  simp only [readDocument_eq_ok_iff]
  constructor
  · rintro ⟨registry, tag, some, read⟩
    obtain ⟨results, each, -⟩ := read.models
    exact ⟨tag, inhabited.mp some, read.distinct, models.mp ⟨results, each⟩⟩
  · intro valid
    obtain ⟨results, each⟩ := models.mpr valid.models
    -- nothing is registered before the first model, so no key is taken then
    refine ⟨⟨_, _, _⟩, valid.tag, inhabited.mpr valid.inhabited, valid.distinct, ?_,
      ⟨results, each, rfl⟩, rfl, rfl⟩
    intro key _
    rfl

end DecisionTree.Pmml
