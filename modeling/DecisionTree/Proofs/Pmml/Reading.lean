import DecisionTree.Pmml.Document
import DecisionTree.Proofs.Pmml.Predicate
import DecisionTree.Proofs.Text.Keyword

/-!
What a successful reading consists of. Readers go through content item by item; put together, each
of them picks out the items of certain kinds, reads them in their order, and accepts nothing beside
them that it does not know. The order of items of different kinds is lost.
-/

namespace DecisionTree

namespace Xml.Content

def hasTag (tag : String) (item : Content) : Bool :=
  item.tag? == some tag

variable {tag : String} {item : Content}

theorem hasTag_iff : item.hasTag tag = true ↔ item.tag? = some tag :=
  beq_iff_eq

theorem hasTag_of_tag {other : String} (named : item.tag? = some other) :
    item.hasTag tag = (other == tag) := by
  rw [hasTag, named]
  rfl

theorem hasTag_of_no_tag (named : item.tag? = none) : item.hasTag tag = false := by
  rw [hasTag, named]
  rfl

end Xml.Content

namespace Pmml

open Xml (Content Attribute)
open Sequence (bind_eq_ok_iff map_eq_ok_iff Gathers)

variable {attributes : List Attribute} {content rest : List Content} {item : Content}

theorem required_eq_ok_iff {element key value : String} :
    required element key attributes = .ok value ↔ Xml.valueOf? key attributes = some value := by
  unfold required
  cases Xml.valueOf? key attributes <;> simp

theorem optional_eq_ok_iff {α : Type} {read? : String → Option α} {element key : String}
    {result : Option α} :
    optional read? element key attributes = .ok result ↔
      (Xml.valueOf? key attributes = none ∧ result = none) ∨
        ∃ written value, Xml.valueOf? key attributes = some written ∧
          read? (Text.trim written) = some value ∧ result = some value := by
  unfold optional
  cases Xml.valueOf? key attributes with
  | none => simp [eq_comm]
  | some written =>
    cases outcome : read? (Text.trim written) <;> simp [outcome, eq_comm]

open Vocabulary (Spells)

theorem readOperator_eq_ok_iff {α : Type} {read : String → Except EvaluationError α}
    {keyword : String} {operator : α} :
    readOperator read keyword = .ok operator ↔ read keyword = .ok operator := by
  unfold readOperator
  cases read keyword <;> simp [Except.mapError]

theorem arrayOf?_eq_map (content : List Content) :
    arrayOf? content = (content.find? (·.hasTag "Array")).map contentOf := by
  unfold arrayOf?
  induction content with
  | nil => rfl
  | cons item rest ih =>
    rw [List.findSome?_cons, List.find?_cons]
    cases item with
    | element name attributes inner =>
      by_cases array : name.localName = "Array"
      · simp [array, Content.hasTag, Content.tag?, contentOf]
      · have other : (Content.element name attributes inner).hasTag "Array" = false :=
          (Content.hasTag_of_tag rfl).trans (beq_eq_false_iff_ne.mpr array)
        simp only [array, if_false, other, ih]
    | text | comment | instruction => exact ih

/-- A comparison is read from a field, an operator, and a literal if the operator requires one. -/
theorem readComparison_eq_ok_iff {predicate : Predicate} :
    readComparison attributes = .ok predicate ↔
      ∃ field operator literal, Xml.valueOf? "field" attributes = some field ∧
        (∃ keyword, Xml.valueOf? "operator" attributes = some keyword ∧ Spells operator keyword) ∧
        (if operator.requiresLiteral then
          literal.isSome ∧ Xml.valueOf? "value" attributes = literal else literal = none) ∧
        predicate = .compare field operator literal := by
  unfold readComparison
  simp only [bind_eq_ok_iff, required_eq_ok_iff, readOperator_eq_ok_iff, Comparison.read_eq_ok_iff]
  constructor
  · rintro ⟨field, found, keyword, named, operator, spells, read⟩
    split at read
    next needed =>
      obtain ⟨literal, given, read⟩ := bind_eq_ok_iff.mp read
      cases read
      refine ⟨field, operator, some literal, found, ⟨keyword, named, spells⟩, ?_, rfl⟩
      rw [if_pos needed]
      exact ⟨rfl, required_eq_ok_iff.mp given⟩
    next free =>
      cases read
      refine ⟨field, operator, none, found, ⟨keyword, named, spells⟩, ?_, rfl⟩
      rw [if_neg free]
  · rintro ⟨field, operator, literal, found, ⟨keyword, named, spells⟩, given, rfl⟩
    refine ⟨field, found, keyword, named, operator, spells, ?_⟩
    split at given
    next needed =>
      obtain ⟨literal, rfl⟩ := Option.isSome_iff_exists.mp given.1
      rw [if_pos needed]
      exact bind_eq_ok_iff.mpr ⟨literal, required_eq_ok_iff.mpr given.2, rfl⟩
    next free =>
      rw [if_neg free, given]
      rfl

theorem readMembership_eq_ok_iff {predicate : Predicate} :
    readMembership attributes content = .ok predicate ↔
      ∃ field operator array, Xml.valueOf? "field" attributes = some field ∧
        (∃ keyword, Xml.valueOf? "booleanOperator" attributes = some keyword ∧
          Spells operator keyword) ∧
        content.find? (·.hasTag "Array") = some array ∧
        predicate =
          .member field operator (arrayValues ((Xml.leadingText? (contentOf array)).getD "")) := by
  unfold readMembership
  simp only [bind_eq_ok_iff, required_eq_ok_iff, readOperator_eq_ok_iff, Membership.read_eq_ok_iff,
    arrayOf?_eq_map]
  cases content.find? (·.hasTag "Array") with
  | none => simp [throw, throwThe, MonadExceptOf.throw]
  | some array =>
    simp only [Option.map_some, pure, Except.pure, Except.ok.injEq]
    constructor
    · rintro ⟨field, found, keyword, named, operator, spells, rfl⟩
      exact ⟨field, operator, array, found, ⟨keyword, named, spells⟩, rfl, rfl⟩
    · rintro ⟨field, operator, _, found, ⟨keyword, named, spells⟩, ⟨⟩, rfl⟩
      exact ⟨field, found, keyword, named, operator, spells, rfl⟩

theorem readConnective_eq_ok_iff {operator : Connective} :
    readConnective attributes = .ok operator ↔
      ∃ keyword, Xml.valueOf? "booleanOperator" attributes = some keyword ∧
        Spells operator keyword := by
  unfold readConnective
  simp only [bind_eq_ok_iff, required_eq_ok_iff, readOperator_eq_ok_iff, Connective.read_eq_ok_iff]

theorem compoundOf_eq_ok_iff {operator : Connective} {operands : List Predicate}
    {predicate : Predicate} :
    compoundOf operator operands = .ok predicate ↔
      operands ≠ [] ∧ .compound operator operands = predicate := by
  cases operands <;> simp [compoundOf]

/-- An element that is an operand of a compound: any but an extension. -/
def isOperand (item : Content) : Bool :=
  item.tag?.any (· != "Extension")

theorem isOperand_of_tag {tag : String} (named : item.tag? = some tag) :
    isOperand item = (tag != "Extension") := by
  rw [isOperand, named]
  rfl

theorem isOperand_of_no_tag (named : item.tag? = none) : isOperand item = false := by
  rw [isOperand, named]
  rfl

theorem readOperands_eq_mapM (content : List Content) :
    readOperands content = (content.filter isOperand).mapM readPredicate := by
  induction content with
  | nil => rfl
  | cons item rest ih =>
    rw [readOperands, List.filter_cons]
    split
    next named =>
      rw [isOperand_of_no_tag named, ih]
      rfl
    next named =>
      rw [isOperand_of_tag named, ih]
      rfl
    next tag other named =>
      have chosen : isOperand item = true := by
        rw [isOperand_of_tag named]
        exact bne_iff_ne.mpr other
      rw [if_pos chosen, List.mapM_cons, ih]

theorem readPredicate_always (named : item.tag? = some "True") :
    readPredicate item = .ok .always := by
  cases item with
  | element name => simp only [readPredicate, Option.some.inj named]
  | _ => cases named

theorem readPredicate_never (named : item.tag? = some "False") :
    readPredicate item = .ok .never := by
  cases item with
  | element name => simp only [readPredicate, Option.some.inj named]
  | _ => cases named

theorem readPredicate_comparison (named : item.tag? = some "SimplePredicate") :
    readPredicate item = readComparison (attributesOf item) := by
  cases item with
  | element name => simp only [readPredicate, Option.some.inj named, attributesOf]
  | _ => cases named

theorem readPredicate_membership (named : item.tag? = some "SimpleSetPredicate") :
    readPredicate item = readMembership (attributesOf item) (contentOf item) := by
  cases item with
  | element name => simp only [readPredicate, Option.some.inj named, attributesOf, contentOf]
  | _ => cases named

theorem readPredicate_compound (named : item.tag? = some "CompoundPredicate") :
    readPredicate item = (do
      let operator ← readConnective (attributesOf item)
      let operands ← readOperands (contentOf item)
      compoundOf operator operands) := by
  cases item with
  | element name => simp only [readPredicate, Option.some.inj named, attributesOf, contentOf]
  | _ => cases named

theorem readPredicate_compound_eq_ok_iff (named : item.tag? = some "CompoundPredicate")
    {predicate : Predicate} :
    readPredicate item = .ok predicate ↔
      ∃ operator operands,
        (∃ keyword, Xml.valueOf? "booleanOperator" (attributesOf item) = some keyword ∧
          Spells operator keyword) ∧
        ((contentOf item).filter isOperand).mapM readPredicate = .ok operands ∧
        operands ≠ [] ∧ predicate = .compound operator operands := by
  rw [readPredicate_compound named]
  simp only [bind_eq_ok_iff, readConnective_eq_ok_iff, readOperands_eq_mapM, compoundOf_eq_ok_iff]
  constructor
  · rintro ⟨operator, spelled, operands, read, inhabited, rfl⟩
    exact ⟨operator, operands, spelled, read, inhabited, rfl⟩
  · rintro ⟨operator, operands, spelled, read, inhabited, rfl⟩
    exact ⟨operator, spelled, operands, read, inhabited, rfl⟩

def isPredicateElement (item : Content) : Bool :=
  item.tag?.any predicateTags.contains

def nodeTags : List String :=
  ["Node", "ScoreDistribution"] ++ predicateTags ++ skippedTags

theorem isPredicateElement_of_tag {tag : String} (named : item.tag? = some tag) :
    isPredicateElement item = predicateTags.contains tag := by
  rw [isPredicateElement, named]
  rfl

private theorem isPredicateElement_of_no_tag (named : item.tag? = none) :
    isPredicateElement item = false := by
  rw [isPredicateElement, named]
  rfl

theorem kind_of_child (named : item.tag? = some "Node") :
    isPredicateElement item = false ∧ item.hasTag "ScoreDistribution" = false ∧
      item.hasTag "Node" = true :=
  ⟨isPredicateElement_of_tag named, Content.hasTag_of_tag named, Content.hasTag_of_tag named⟩

theorem kind_of_distribution (named : item.tag? = some "ScoreDistribution") :
    isPredicateElement item = false ∧ item.hasTag "ScoreDistribution" = true ∧
      item.hasTag "Node" = false :=
  ⟨isPredicateElement_of_tag named, Content.hasTag_of_tag named, Content.hasTag_of_tag named⟩

theorem kind_of_predicate {tag : String} (named : item.tag? = some tag)
    (among : tag ∈ predicateTags) :
    isPredicateElement item = true ∧ item.hasTag "ScoreDistribution" = false ∧
      item.hasTag "Node" = false := by
  have apart : ∀ tag ∈ predicateTags, tag ≠ "ScoreDistribution" ∧ tag ≠ "Node" := by decide
  obtain ⟨notDistribution, notChild⟩ := apart tag among
  rw [isPredicateElement_of_tag named, Content.hasTag_of_tag named, Content.hasTag_of_tag named]
  exact ⟨List.contains_iff_mem.mpr among, beq_eq_false_iff_ne.mpr notDistribution,
    beq_eq_false_iff_ne.mpr notChild⟩

private theorem kind_of_skipped {tag : String} (named : item.tag? = some tag)
    (skipped : tag ∈ skippedTags) :
    isPredicateElement item = false ∧ item.hasTag "ScoreDistribution" = false ∧
      item.hasTag "Node" = false := by
  have apart : ∀ tag ∈ skippedTags,
      predicateTags.contains tag = false ∧ tag ≠ "ScoreDistribution" ∧ tag ≠ "Node" := by
    decide
  obtain ⟨notPredicate, notDistribution, notChild⟩ := apart tag skipped
  rw [isPredicateElement_of_tag named, Content.hasTag_of_tag named, Content.hasTag_of_tag named]
  exact ⟨notPredicate, beq_eq_false_iff_ne.mpr notDistribution, beq_eq_false_iff_ne.mpr notChild⟩

/-- Every element is one of those that may stand in a node. -/
def KnownParts (content : List Content) : Prop :=
  ∀ item ∈ content, ∀ tag, item.tag? = some tag → tag ∈ nodeTags

theorem knownParts_cons {tag : String} (named : item.tag? = some tag) :
    KnownParts (item :: rest) ↔ tag ∈ nodeTags ∧ KnownParts rest := by
  simp [KnownParts, named]

theorem knownParts_cons_of_no_tag (named : item.tag? = none) :
    KnownParts (item :: rest) ↔ KnownParts rest := by
  simp [KnownParts, named]

/-- What reading content adds to the parts of a node. -/
@[mk_iff] structure PartsRead (parts next : NodeParts) (content : List Content) : Prop where
  known : KnownParts content
  predicate : Gathers isPredicateElement readPredicate parts.predicate.toList
    next.predicate.toList content
  distributions : Gathers (·.hasTag "ScoreDistribution") (readDistribution <| attributesOf ·)
    parts.distributions next.distributions content
  children : Gathers (·.hasTag "Node") readNode parts.children next.children content

namespace PartsRead

variable {parts next : NodeParts} {tag : String}

theorem nil_iff : PartsRead parts next [] ↔ parts = next := by
  obtain ⟨predicate, distributions, children⟩ := parts
  obtain ⟨predicate', distributions', children'⟩ := next
  rw [partsRead_iff, Gathers.nil_option_iff, Gathers.nil_iff, Gathers.nil_iff]
  simp [KnownParts]

theorem cons_of_child (named : item.tag? = some "Node") :
    PartsRead parts next (item :: rest) ↔
      ∃ child, readNode item = .ok child ∧ PartsRead (parts.addChild child) next rest := by
  obtain ⟨predicate, distribution, child⟩ := kind_of_child named
  have known : "Node" ∈ nodeTags := by decide
  simp only [partsRead_iff, knownParts_cons named, Gathers.cons_of_neg predicate,
    Gathers.cons_of_neg distribution, Gathers.cons_of_pos child, NodeParts.addChild]
  tauto

theorem cons_of_distribution (named : item.tag? = some "ScoreDistribution") :
    PartsRead parts next (item :: rest) ↔
      ∃ between, parts.addDistribution item = .ok between ∧ PartsRead between next rest := by
  obtain ⟨predicate, distribution, child⟩ := kind_of_distribution named
  have known : "ScoreDistribution" ∈ nodeTags := by decide
  simp only [partsRead_iff, knownParts_cons named, Gathers.cons_of_neg predicate,
    Gathers.cons_of_pos distribution, Gathers.cons_of_neg child, NodeParts.addDistribution,
    map_eq_ok_iff]
  constructor
  · rintro ⟨⟨-, others⟩, predicates, ⟨entry, read, distributions⟩, children⟩
    exact ⟨_, ⟨entry, read, rfl⟩, others, predicates, distributions, children⟩
  · rintro ⟨_, ⟨entry, read, rfl⟩, others, predicates, distributions, children⟩
    exact ⟨⟨known, others⟩, predicates, ⟨entry, read, distributions⟩, children⟩

theorem cons_of_predicate (named : item.tag? = some tag) (chosen : predicateTags.contains tag) :
    PartsRead parts next (item :: rest) ↔
      ∃ between, parts.addPredicate tag item = .ok between ∧ PartsRead between next rest := by
  have among : tag ∈ predicateTags := List.contains_iff_mem.mp chosen
  obtain ⟨predicate, distribution, child⟩ := kind_of_predicate named among
  have known : tag ∈ nodeTags := by simp [nodeTags, among]
  simp only [partsRead_iff, knownParts_cons named, Gathers.cons_option_of_pos predicate,
    Gathers.cons_of_neg distribution, Gathers.cons_of_neg child, NodeParts.addPredicate]
  cases parts.predicate with
  | some earlier => simp
  | none =>
    simp only [map_eq_ok_iff, true_and]
    constructor
    · rintro ⟨⟨-, others⟩, ⟨first, read, predicates⟩, distributions, children⟩
      exact ⟨_, ⟨first, read, rfl⟩, others, predicates, distributions, children⟩
    · rintro ⟨_, ⟨first, read, rfl⟩, others, predicates, distributions, children⟩
      exact ⟨⟨known, others⟩, ⟨first, read, predicates⟩, distributions, children⟩

theorem cons_of_skipped (named : item.tag? = some tag) (skipped : tag ∈ skippedTags) :
    PartsRead parts next (item :: rest) ↔ PartsRead parts next rest := by
  have known : tag ∈ nodeTags := by simp [nodeTags, skipped]
  obtain ⟨predicate, distribution, child⟩ := kind_of_skipped named skipped
  simp only [partsRead_iff, knownParts_cons named, Gathers.cons_of_neg predicate,
    Gathers.cons_of_neg distribution, Gathers.cons_of_neg child, known, true_and]

theorem cons_of_no_tag (named : item.tag? = none) :
    PartsRead parts next (item :: rest) ↔ PartsRead parts next rest := by
  simp only [partsRead_iff, knownParts_cons_of_no_tag named,
    Gathers.cons_of_neg (isPredicateElement_of_no_tag named),
    Gathers.cons_of_neg (Content.hasTag_of_no_tag named)]

end PartsRead

/-- Reading the parts of a node succeeds with what was gathered, and only so. -/
theorem readParts_eq_ok_iff {parts next : NodeParts} :
    readParts parts content = .ok next ↔ PartsRead parts next content := by
  induction content generalizing parts with
  | nil =>
    rw [PartsRead.nil_iff, readParts, Except.ok.injEq]
  | cons item rest ih =>
    rw [readParts]
    split
    next named => rw [PartsRead.cons_of_no_tag named, ih]
    next named =>
      rw [PartsRead.cons_of_child named, bind_eq_ok_iff]
      simp only [ih]
    next named =>
      rw [PartsRead.cons_of_distribution named, bind_eq_ok_iff]
      simp only [ih]
    next tag notChild notDistribution named =>
      split
      next chosen =>
        rw [PartsRead.cons_of_predicate named chosen, bind_eq_ok_iff]
        simp only [ih]
      next notPredicate =>
        split
        next skipped => rw [PartsRead.cons_of_skipped named (List.contains_iff_mem.mp skipped), ih]
        next unknown =>
          have stranger : tag ∉ nodeTags := by
            rw [List.contains_iff_mem] at notPredicate unknown
            simp only [nodeTags, List.mem_append, List.mem_cons, List.not_mem_nil, or_false]
            rintro (((child | distribution) | predicate) | skipped)
            · exact notChild child
            · exact notDistribution distribution
            · exact notPredicate predicate
            · exact unknown skipped
          constructor
          · exact fun impossible => nomatch impossible
          · exact fun read => absurd (read.known item List.mem_cons_self tag named) stranger

/-- A distribution entry has a value and a count. Its confidence is the stated one, and only where
none is stated the probability. -/
theorem readDistribution_eq_ok_iff {entry : Distribution} :
    readDistribution attributes = .ok entry ↔
      optionalNumber "ScoreDistribution" "recordCount" attributes = .ok (some entry.recordCount) ∧
      (∃ stated, optionalNumber "ScoreDistribution" "confidence" attributes = .ok stated ∧
        (if stated.isSome then entry.confidence = stated else
          optionalNumber "ScoreDistribution" "probability" attributes = .ok entry.confidence)) ∧
      Xml.valueOf? "value" attributes = some entry.value := by
  unfold readDistribution
  simp only [bind_eq_ok_iff]
  constructor
  · rintro ⟨count, counted, read⟩
    cases count with
    | none => cases read
    | some recordCount =>
      obtain ⟨stated, given, read⟩ := bind_eq_ok_iff.mp read
      cases stated with
      | none =>
        simp only [bind_eq_ok_iff, required_eq_ok_iff] at read
        obtain ⟨confidence, chosen, value, named, built⟩ := read
        cases built
        exact ⟨counted, ⟨none, given, chosen⟩, named⟩
      | some stated =>
        simp only [bind_eq_ok_iff, required_eq_ok_iff] at read
        obtain ⟨_, chosen, value, named, built⟩ := read
        cases chosen
        cases built
        exact ⟨counted, ⟨some stated, given, rfl⟩, named⟩
  · rintro ⟨counted, ⟨stated, given, chosen⟩, named⟩
    obtain ⟨value, recordCount, confidence⟩ := entry
    refine ⟨some recordCount, counted, bind_eq_ok_iff.mpr ⟨stated, given, ?_⟩⟩
    cases stated with
    | none =>
      simp only [bind_eq_ok_iff, required_eq_ok_iff]
      exact ⟨confidence, chosen, value, named, rfl⟩
    | some stated =>
      cases chosen
      simp only [bind_eq_ok_iff, required_eq_ok_iff]
      exact ⟨some stated, rfl, value, named, rfl⟩

theorem toNode_eq_ok_iff {parts : NodeParts} {node : Node} :
    parts.toNode attributes = .ok node ↔
      parts = ⟨some node.predicate, node.distributions, node.children⟩ ∧
      optionalNumber "Node" "recordCount" attributes = .ok node.recordCount ∧
      Xml.valueOf? "id" attributes = node.id ∧ Xml.valueOf? "score" attributes = node.score := by
  obtain ⟨predicate, distributions, children⟩ := parts
  cases node
  unfold NodeParts.toNode
  cases predicate with
  | none => simp
  | some predicate =>
    simp only [bind_eq_ok_iff]
    constructor
    · rintro ⟨recordCount, read, built⟩
      cases built
      exact ⟨rfl, read, rfl, rfl⟩
    · rintro ⟨same, read, id, score⟩
      cases same
      cases id
      cases score
      exact ⟨_, read, rfl⟩

/-- A node is read from an element with one predicate; its distribution entries and its children
are the elements for them, in order. -/
theorem readNode_eq_ok_iff {name : Xml.Name} {node : Node} :
    readNode (.element name attributes content) = .ok node ↔
      PartsRead {} ⟨some node.predicate, node.distributions, node.children⟩ content ∧
      optionalNumber "Node" "recordCount" attributes = .ok node.recordCount ∧
      Xml.valueOf? "id" attributes = node.id ∧ Xml.valueOf? "score" attributes = node.score := by
  rw [readNode, bind_eq_ok_iff]
  simp only [readParts_eq_ok_iff, toNode_eq_ok_iff]
  constructor
  · rintro ⟨_, read, rfl, others⟩
    exact ⟨read, others⟩
  · rintro ⟨read, others⟩
    exact ⟨_, read, rfl, others⟩

end Pmml
end DecisionTree
