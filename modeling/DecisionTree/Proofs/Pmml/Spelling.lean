import DecisionTree.Proofs.Pmml.Registration
import DecisionTree.Proofs.Pmml.Remarks

namespace DecisionTree

namespace Vocabulary

open Text (Padded)

/-- Texts that differ only in the case of ASCII letters and in the blanks around them. -/
inductive Respells (first second : String) : Prop
  | intro {core changed : List Char} (letters : core.map Char.toLower = changed.map Char.toLower)
      (before : Padded core first.toList) (after : Padded changed second.toList)

private theorem Respells.folded_eq {first second : String} (respells : Respells first second) :
    folded first = folded second := by
  obtain ⟨letters, before, after⟩ := respells
  rw [folded, folded, before.trimmed_eq, after.trimmed_eq, ← Text.trimmed_map_toLower, letters,
    Text.trimmed_map_toLower]

end Vocabulary

/-- The error with the keyword in it trimmed and in lower case, if there is one. -/
def LoadError.folded : LoadError → LoadError
  | .invalidAttribute element key value =>
    .invalidAttribute element key (String.ofList (Vocabulary.folded value))
  | .predicate (.unknownOperator kind name) =>
    .predicate (.unknownOperator kind (String.ofList (Vocabulary.folded name)))
  | error => error

namespace Pmml

open Xml (Content Attribute)
open Text (Padded)
open Vocabulary (Spells Respells)
open Sequence (mapError_bind_congr mapError_map_congr)

variable {attributes others : List Attribute} {items remaining : List Content}
  {item other : Content}

/-- The attributes that hold keywords, in elements of a name. -/
def keywordsOf (tag : String) : List String :=
  if predicateTags.contains tag then ["operator", "booleanOperator"]
  else if tag = "TreeModel" then
    ["splitCharacteristic", "missingValueStrategy", "noTrueChildStrategy"]
  else []

/-- An attribute of an element of this name, with another spelling if it holds a keyword. -/
inductive RespelledAttribute (tag : String) : Attribute → Attribute → Prop
  | keep (given : Attribute) : RespelledAttribute tag given given
  | keyword {key first second : String} (keyword : key ∈ keywordsOf tag)
      (respells : Respells first second) :
      RespelledAttribute tag ⟨⟨"", key⟩, first⟩ ⟨⟨"", key⟩, second⟩

/-- The same content with other spellings of keywords, at any depth. -/
inductive Respelled : Content → Content → Prop
  | keep {item : Content} (inert : item.tag? = none) : Respelled item item
  | element {name : Xml.Name} {attributes others : List Attribute}
      {items remaining : List Content}
      (given : List.Forall₂ (RespelledAttribute name.localName) attributes others)
      (each : List.Forall₂ Respelled items remaining) :
      Respelled (.element name attributes items) (.element name others remaining)

/-- All attributes that hold keywords. -/
def keywords : List String :=
  ["operator", "booleanOperator", "splitCharacteristic", "missingValueStrategy",
    "noTrueChildStrategy"]

/-- Attributes that readers tell apart by the spelling of keywords at most. -/
structure SameBut (attributes others : List Attribute) : Prop where
  same : ∀ key ∉ keywords, Xml.valueOf? key attributes = Xml.valueOf? key others
  folded : ∀ key, (Xml.valueOf? key attributes).map Vocabulary.folded =
    (Xml.valueOf? key others).map Vocabulary.folded

private theorem mem_keywords {tag key : String} (keyword : key ∈ keywordsOf tag) :
    key ∈ keywords := by
  unfold keywordsOf at keyword
  split at keyword
  next => exact List.mem_append_left _ keyword
  next =>
    split at keyword
    next => exact List.mem_append_right ["operator", "booleanOperator"] keyword
    next => cases keyword

private theorem valueOf?_cons (key : String) (given : Attribute) (attributes : List Attribute) :
    Xml.valueOf? key (given :: attributes) =
      if given.name = ⟨"", key⟩ then some given.value else Xml.valueOf? key attributes := by
  unfold Xml.valueOf?
  rw [List.find?_cons]
  by_cases named : given.name = ⟨"", key⟩
  · rw [if_pos named, beq_iff_eq.mpr named]
    rfl
  · rw [if_neg named, beq_eq_false_iff_ne.mpr named]

theorem sameBut_of_respelled {tag : String}
    (each : List.Forall₂ (RespelledAttribute tag) attributes others) :
    SameBut attributes others := by
  induction each with
  | nil => exact ⟨fun _ _ => rfl, fun _ => rfl⟩
  | cons respelled _ ih =>
    cases respelled with
    | keep given =>
      constructor
      · intro key free
        rw [valueOf?_cons, valueOf?_cons, ih.same key free]
      · intro key
        rw [valueOf?_cons, valueOf?_cons]
        split
        next => rfl
        next => exact ih.folded key
    | @keyword name first second keyword respells =>
      constructor
      · intro key free
        rw [valueOf?_cons, valueOf?_cons, ih.same key free]
        have other : name ≠ key := by
          rintro rfl
          exact free (mem_keywords keyword)
        simp [other]
      · intro key
        rw [valueOf?_cons, valueOf?_cons]
        split
        next => exact congrArg some respells.folded_eq
        next => exact ih.folded key

namespace Respelled

theorem tag (respelled : Respelled item other) : item.tag? = other.tag? := by
  cases respelled with
  | keep => rfl
  | element => rfl

theorem sameBut (respelled : Respelled item other) :
    SameBut (attributesOf item) (attributesOf other) := by
  cases respelled with
  | keep => exact ⟨fun _ _ => rfl, fun _ => rfl⟩
  | element given => exact sameBut_of_respelled given

theorem contents (respelled : Respelled item other) :
    List.Forall₂ Respelled (contentOf item) (contentOf other) := by
  cases respelled with
  | keep inert =>
    cases item with
    | element => cases inert
    | text | comment | instruction => exact .nil
  | element _ each => exact each

private theorem hasTag (respelled : Respelled item other) (tag : String) :
    item.hasTag tag = other.hasTag tag := by
  rw [Content.hasTag, Content.hasTag, respelled.tag]

end Respelled

section Agree

variable {α β : Type} {first second : Except LoadError α}

/-- Both succeed with the same result, or fail for the same reason up to the spelling of the keyword
in it. -/
def Agree (first second : Except LoadError α) : Prop :=
  first.mapError LoadError.folded = second.mapError LoadError.folded

theorem Agree.of_eq (same : first = second) : Agree first second :=
  congrArg (Except.mapError LoadError.folded) same

theorem Agree.bind {next later : α → Except LoadError β} (agree : Agree first second)
    (steps : ∀ x, Agree (next x) (later x)) : Agree (first >>= next) (second >>= later) :=
  mapError_bind_congr agree steps

theorem Agree.map (agree : Agree first second) (f : α → β) : Agree (first.map f) (second.map f) :=
  mapError_map_congr agree f

/-- What agreeing results are. -/
theorem Agree.cases (agree : Agree first second) :
    (∃ x, first = .ok x ∧ second = .ok x) ∨
      ∃ error cause, first = .error error ∧ second = .error cause ∧
        error.folded = cause.folded := by
  unfold Agree at agree
  cases first with
  | ok x =>
    cases second with
    | ok y => exact .inl ⟨x, rfl, congrArg Except.ok (Except.ok.inj agree).symm⟩
    | error => cases agree
  | error error =>
    cases second with
    | ok => cases agree
    | error cause => exact .inr ⟨error, cause, rfl, rfl, Except.error.inj agree⟩

end Agree

variable {α : Type} [Lexicon α]

theorem required_congr {element : String} (key : String) (sameBut : SameBut attributes others)
    (free : key ∉ keywords) : required element key attributes = required element key others := by
  rw [required, required, sameBut.same key free]

theorem optional_congr {α : Type} {read? : String → Option α} {element : String} (key : String)
    (sameBut : SameBut attributes others) (free : key ∉ keywords) :
    optional read? element key attributes = optional read? element key others := by
  rw [optional, optional, sameBut.same key free]

def operatorOf (read : String → Except EvaluationError α) (element key : String)
    (attributes : List Attribute) : Except LoadError α := do
  let keyword ← required element key attributes
  readOperator read keyword

/-- Operators of every kind are read from their vocabulary. -/
def ReadsOperators (read : String → Except EvaluationError α) (kind : OperatorKind) : Prop :=
  ∀ keyword, read keyword = match Lexicon.read? keyword with
    | some operator => .ok operator
    | none => .error (.unknownOperator kind keyword)

theorem operatorOf_agree {read : String → Except EvaluationError α} {kind : OperatorKind}
    (reads : ReadsOperators read kind) {element key : String}
    (sameBut : SameBut attributes others) :
    Agree (operatorOf read element key attributes) (operatorOf read element key others) := by
  have folded := sameBut.folded key
  unfold operatorOf required
  rcases Sequence.none_or_some_of_map_eq folded with ⟨first, second⟩ | ⟨x, y, first, second, same⟩
  · rw [first, second]
    rfl
  · rw [first, second]
    change Agree (readOperator read x) (readOperator read y)
    rw [readOperator, readOperator, reads, reads, Lexicon.read?_congr same]
    cases Lexicon.read? (α := α) y with
    | some operator => rfl
    | none =>
      change Except.error _ = Except.error _
      simp only [LoadError.folded, same]

theorem optionalKeyword_agree [Lexicon.Faithful α] {read : String → Except UnknownStrategy α}
    (reads : ∀ keyword strategy, read keyword = .ok strategy ↔ Spells strategy keyword)
    {key : String} (sameBut : SameBut attributes others) :
    Agree (optionalKeyword read key attributes) (optionalKeyword read key others) := by
  have found (keyword : String) : (read keyword).toOption = Lexicon.read? keyword := by
    apply Option.ext
    intro strategy
    exact (Sequence.mem_toOption_iff.trans (reads keyword strategy)).trans
      Lexicon.read?_eq_some_iff.symm
  have folded := sameBut.folded key
  unfold optionalKeyword optional
  rcases Sequence.none_or_some_of_map_eq folded with ⟨first, second⟩ | ⟨x, y, first, second, same⟩
  · rw [first, second]
    rfl
  · rw [first, second]
    have trimmed : Vocabulary.folded (Text.trim x) = Vocabulary.folded (Text.trim y) := by
      rw [Vocabulary.folded_trim, Vocabulary.folded_trim, same]
    simp only [found, Lexicon.read?_congr trimmed]
    cases Lexicon.read? (α := α) (Text.trim y) with
    | some strategy => rfl
    | none =>
      change Except.error _ = Except.error _
      simp only [LoadError.folded, same]

theorem reads_comparison : ReadsOperators Comparison.read .comparison := by
  intro keyword
  rw [Comparison.read]
  cases Lexicon.read? (α := Comparison) keyword <;> rfl

theorem reads_membership : ReadsOperators Membership.read .membership := by
  intro keyword
  rw [Membership.read]
  cases Lexicon.read? (α := Membership) keyword <;> rfl

theorem reads_connective : ReadsOperators Connective.read .connective := by
  intro keyword
  rw [Connective.read]
  cases Lexicon.read? (α := Connective) keyword <;> rfl

private theorem readComparison_eq (attributes : List Attribute) :
    readComparison attributes = (do
      let field ← required "SimplePredicate" "field" attributes
      let operator ← operatorOf Comparison.read "SimplePredicate" "operator" attributes
      if operator.requiresLiteral then
        let literal ← required "SimplePredicate" "value" attributes
        return .compare field operator (some literal)
      else return .compare field operator none) := by
  simp only [readComparison, operatorOf, bind_assoc]

theorem readComparison_agree (sameBut : SameBut attributes others) :
    Agree (readComparison attributes) (readComparison others) := by
  rw [readComparison_eq, readComparison_eq, required_congr "field" sameBut (by decide),
    required_congr "value" sameBut (by decide)]
  apply (Agree.of_eq rfl).bind
  intro field
  apply (operatorOf_agree reads_comparison sameBut).bind
  intro operator
  exact .of_eq rfl

theorem leadingText?_congr (each : List.Forall₂ Respelled items remaining) :
    Xml.leadingText? items = Xml.leadingText? remaining := by
  cases each with
  | nil => rfl
  | @cons item _ _ _ respelled _ =>
    cases item with
    | text | comment | instruction =>
      cases respelled
      rfl
    | element =>
      cases respelled with
      | keep inert => cases inert
      | element => rfl

theorem arrayOf?_congr (each : List.Forall₂ Respelled items remaining) :
    (arrayOf? items).map Xml.leadingText? = (arrayOf? remaining).map Xml.leadingText? := by
  rw [arrayOf?_eq_map, arrayOf?_eq_map]
  induction each with
  | nil => rfl
  | @cons item other _ _ respelled _ ih =>
    rw [List.find?_cons, List.find?_cons, ← respelled.hasTag]
    cases item.hasTag "Array" with
    | true => exact congrArg some (leadingText?_congr respelled.contents)
    | false => exact ih

private theorem readMembership_eq_operatorOf (attributes : List Attribute)
    (content : List Content) :
    readMembership attributes content = (do
      let field ← required "SimpleSetPredicate" "field" attributes
      let operator ← operatorOf Membership.read "SimpleSetPredicate" "booleanOperator" attributes
      match (arrayOf? content).map Xml.leadingText? with
      | none => throw (.missingElement "SimpleSetPredicate" "Array")
      | some text => return .member field operator (arrayValues (text.getD ""))) := by
  unfold readMembership operatorOf
  simp only [bind_assoc]
  cases arrayOf? content <;> rfl

theorem readMembership_agree (sameBut : SameBut attributes others)
    (each : List.Forall₂ Respelled items remaining) :
    Agree (readMembership attributes items) (readMembership others remaining) := by
  rw [readMembership_eq_operatorOf, readMembership_eq_operatorOf,
    required_congr "field" sameBut (by decide), arrayOf?_congr each]
  apply (Agree.of_eq rfl).bind
  intro field
  apply (operatorOf_agree reads_membership sameBut).bind
  intro operator
  exact .of_eq rfl

theorem readOperands_agree (each : List.Forall₂ Respelled items remaining)
    (operands : ∀ item ∈ items, ∀ other, Respelled item other →
      Agree (readPredicate item) (readPredicate other)) :
    Agree (readOperands items) (readOperands remaining) := by
  induction each with
  | nil => exact .of_eq rfl
  | cons respelled _ ih =>
    obtain ⟨head, tail⟩ := List.forall_mem_cons.mp operands
    rw [readOperands, readOperands, ← respelled.tag]
    split
    next => exact ih tail
    next => exact ih tail
    next =>
      apply (head _ respelled).bind
      intro operand
      exact (ih tail).bind fun operands => .of_eq rfl

theorem readPredicate_agree (respelled : Respelled item other) :
    Agree (readPredicate item) (readPredicate other) := by
  induction item using Content.induction generalizing other with
  | text | comment | instruction =>
    cases respelled
    exact .of_eq rfl
  | element name attributes items ih =>
    cases respelled with
    | keep inert => cases inert
    | element given each =>
      have sameBut := sameBut_of_respelled given
      rw [readPredicate, readPredicate]
      split
      next => exact .of_eq rfl
      next => exact .of_eq rfl
      next => exact readComparison_agree sameBut
      next => exact readMembership_agree sameBut each
      next =>
        apply (operatorOf_agree reads_connective sameBut).bind
        intro operator
        exact (readOperands_agree each ih).bind fun operands => .of_eq rfl
      next => exact .of_eq rfl

theorem readDistribution_congr (sameBut : SameBut attributes others) :
    readDistribution attributes = readDistribution others := by
  simp only [readDistribution, optionalNumber]
  rw [optional_congr "recordCount" sameBut (by decide),
    optional_congr "confidence" sameBut (by decide),
    optional_congr "probability" sameBut (by decide),
    required_congr "value" sameBut (by decide)]

theorem toNode_congr (parts : NodeParts) (sameBut : SameBut attributes others) :
    parts.toNode attributes = parts.toNode others := by
  simp only [NodeParts.toNode, optionalNumber]
  rw [optional_congr "recordCount" sameBut (by decide),
    sameBut.same "id" (by decide), sameBut.same "score" (by decide)]

theorem addDistribution_congr (parts : NodeParts) (respelled : Respelled item other) :
    parts.addDistribution item = parts.addDistribution other := by
  rw [NodeParts.addDistribution, NodeParts.addDistribution,
    readDistribution_congr respelled.sameBut]

theorem addPredicate_agree (parts : NodeParts) (tag : String) (respelled : Respelled item other) :
    Agree (parts.addPredicate tag item) (parts.addPredicate tag other) := by
  unfold NodeParts.addPredicate
  split
  next => exact .of_eq rfl
  next => exact (readPredicate_agree respelled).map _

theorem readParts_agree (parts : NodeParts) (each : List.Forall₂ Respelled items remaining)
    (nodes : ∀ item ∈ items, ∀ other, Respelled item other →
      Agree (readNode item) (readNode other)) :
    Agree (readParts parts items) (readParts parts remaining) := by
  induction each generalizing parts with
  | nil => exact .of_eq rfl
  | cons respelled _ ih =>
    obtain ⟨head, tail⟩ := List.forall_mem_cons.mp nodes
    rw [readParts, readParts, ← respelled.tag]
    split
    next => exact ih parts tail
    next => exact (head _ respelled).bind fun child => ih (parts.addChild child) tail
    next =>
      rw [addDistribution_congr parts respelled]
      exact (Agree.of_eq rfl).bind fun next => ih next tail
    next tag _ _ _ =>
      split
      next => exact (addPredicate_agree parts tag respelled).bind fun next => ih next tail
      next =>
        split
        next => exact ih parts tail
        next => exact .of_eq rfl

theorem readNode_agree (respelled : Respelled item other) :
    Agree (readNode item) (readNode other) := by
  induction item using Content.induction generalizing other with
  | text | comment | instruction =>
    cases respelled
    exact .of_eq rfl
  | element name attributes items ih =>
    cases respelled with
    | keep inert => cases inert
    | element given each =>
      rw [readNode, readNode]
      apply (readParts_agree {} each ih).bind
      intro parts
      exact .of_eq (toNode_congr parts (sameBut_of_respelled given))

theorem readFields_congr (each : List.Forall₂ Respelled items remaining) :
    readFields items = readFields remaining := by
  induction each with
  | nil => rfl
  | cons respelled _ ih =>
    rw [readFields, readFields, respelled.tag, ih,
      required_congr "name" respelled.sameBut (by decide),
      respelled.sameBut.same "usageType" (by decide)]

theorem readModelParts_agree (parts : ModelParts) (each : List.Forall₂ Respelled items remaining) :
    Agree (readModelParts parts items) (readModelParts parts remaining) := by
  induction each generalizing parts with
  | nil => exact .of_eq rfl
  | cons respelled _ ih =>
    rw [readModelParts, readModelParts, ← respelled.tag]
    split
    next =>
      rw [readFields_congr respelled.contents]
      exact (Agree.of_eq rfl).bind fun fields => ih _
    next =>
      split
      next => exact .of_eq rfl
      next => exact (readNode_agree respelled).bind fun root => ih _
    next => exact ih parts

theorem readModel_agree (respelled : Respelled item other) :
    Agree (readModel item) (readModel other) := by
  have sameBut := respelled.sameBut
  rw [readModel, readModel]
  apply (readModelParts_agree {} respelled.contents).bind
  intro parts
  split
  next => exact .of_eq rfl
  next =>
    apply (optionalKeyword_agree (fun _ _ => Split.read_eq_ok_iff) sameBut).bind
    intro split
    apply (optionalKeyword_agree (fun _ _ => MissingValueStrategy.read_eq_ok_iff) sameBut).bind
    intro missingValue
    apply (optionalKeyword_agree (fun _ _ => NoTrueChildStrategy.read_eq_ok_iff) sameBut).bind
    intro noTrueChild
    rw [sameBut.same "modelName" (by decide), sameBut.same "functionName" (by decide)]
    exact .of_eq rfl

theorem readModels_agree (registry : Registry) (number : Nat)
    (each : List.Forall₂ Respelled items remaining) :
    Agree (readModels registry number items) (readModels registry number remaining) := by
  induction each generalizing registry number with
  | nil => exact .of_eq rfl
  | cons respelled _ ih =>
    rw [readModels, readModels, ← respelled.tag]
    split
    next =>
      rw [respelled.sameBut.same "description" (by decide)]
      exact ih _ _
    next =>
      apply (readModel_agree respelled).bind
      intro model
      exact (Agree.of_eq rfl).bind fun next => ih next (number + 1)
    next => exact ih _ _

theorem readDocument_agree (respelled : Respelled item other) :
    Agree (readDocument item) (readDocument other) := by
  rw [readDocument, readDocument, ← respelled.tag]
  split
  next => exact .of_eq rfl
  next =>
    rw [respelled.sameBut.same "version" (by decide)]
    apply (readModels_agree _ 0 respelled.contents).bind
    intro registry
    exact .of_eq rfl

/-- Documents with other spellings of keywords are loaded to the same registry, or fail for the same
reason up to the spelling of the keyword in it. -/
theorem load_agree {document written : String} (read : Xml.read? document = some item)
    (readOther : Xml.read? written = some other) (respelled : Respelled item other) :
    Agree (load document) (load written) := by
  rw [load, load, read, readOther]
  exact readDocument_agree respelled

/-- A text that is a name up to the blanks around it and the case of its ASCII letters. -/
def ReadsAs (name text : String) : Prop :=
  (Text.trimmed text.toList).map Char.toLower = name.toList.map Char.toLower

/-- In elements with this tag the keyword of an operator is read by the operator's name and by
nothing else, and a predicate that is read has the operator of which the name is given. -/
structure AcceptsOperators {α : Type} (read : String → Except EvaluationError α)
    (name : α → String) (tag key : String) (Has : α → Predicate → Prop) : Prop where
  accepted : ∀ keyword operator,
    readOperator read keyword = .ok operator ↔ ReadsAs (name operator) keyword
  chosen : ∀ item keyword predicate, item.tag? = some tag →
    Xml.valueOf? key (attributesOf item) = some keyword → readPredicate item = .ok predicate →
      ∃ operator, ReadsAs (name operator) keyword ∧ Has operator predicate

/-- In an attribute that is there a strategy is accepted by its name and by nothing else, and a
model that is read has the strategy of which the name is given. -/
structure AcceptsStrategies {α : Type} (read : String → Except UnknownStrategy α)
    (name : α → String) (key : String) (strategyOf : Model → α) : Prop where
  accepted : ∀ attributes keyword, Xml.valueOf? key attributes = some keyword → ∀ choice,
    optionalKeyword read key attributes = .ok choice ↔
      ∃ strategy, choice = some strategy ∧ ReadsAs (name strategy) keyword
  chosen : ∀ item keyword model, Xml.valueOf? key (attributesOf item) = some keyword →
    readModel item = .ok model → ReadsAs (name (strategyOf model)) keyword

theorem spells_iff_readsAs {member : α} {text : String}
    (solid : Text.Solid (Vocabulary.spelling member).toList) :
    Spells member text ↔ ReadsAs (Vocabulary.spelling member) text := by
  rw [Spells, ReadsAs, Vocabulary.folded, Vocabulary.folded, Text.trimmed_of_solid solid]

theorem acceptsOperators {read : String → Except EvaluationError α} {tag key : String}
    {Has : α → Predicate → Prop}
    (reads : ∀ keyword operator, read keyword = .ok operator ↔ Spells operator keyword)
    (solid : ∀ operator : α, Text.Solid (Vocabulary.spelling operator).toList)
    (chosen : ∀ item predicate, item.tag? = some tag → readPredicate item = .ok predicate →
      ∃ operator, (∃ keyword, Xml.valueOf? key (attributesOf item) = some keyword ∧
        Spells operator keyword) ∧ Has operator predicate) :
    AcceptsOperators read Vocabulary.spelling tag key Has := by
  constructor
  · intro keyword operator
    rw [readOperator_eq_ok_iff, reads, spells_iff_readsAs (solid operator)]
  · intro item keyword predicate named given read
    obtain ⟨operator, ⟨written, found, spells⟩, has⟩ := chosen item predicate named read
    obtain rfl : keyword = written := Option.some.inj (given.symm.trans found)
    exact ⟨operator, (spells_iff_readsAs (solid operator)).mp spells, has⟩

theorem acceptsStrategies {read : String → Except UnknownStrategy α} {key : String}
    {strategyOf : Model → α}
    (reads : ∀ keyword strategy, read keyword = .ok strategy ↔ Spells strategy keyword)
    (solid : ∀ strategy : α, Text.Solid (Vocabulary.spelling strategy).toList)
    (chosen : ∀ item model, readModel item = .ok model →
      ∃ choice default, optionalKeyword read key (attributesOf item) = .ok choice ∧
        choice.getD default = strategyOf model) :
    AcceptsStrategies read Vocabulary.spelling key strategyOf := by
  have accepted (attributes : List Attribute) (keyword : String)
      (given : Xml.valueOf? key attributes = some keyword) (choice : Option α) :
      optionalKeyword read key attributes = .ok choice ↔
        ∃ strategy, choice = some strategy ∧
          ReadsAs (Vocabulary.spelling strategy) keyword := by
    rw [optionalKeyword_eq_ok_iff reads, given]
    constructor
    · rintro (⟨⟨⟩, _⟩ | ⟨written, strategy, ⟨⟩, spells, rfl⟩)
      exact ⟨strategy, rfl, (spells_iff_readsAs (solid strategy)).mp spells⟩
    · rintro ⟨strategy, rfl, names⟩
      exact .inr ⟨keyword, strategy, rfl, (spells_iff_readsAs (solid strategy)).mpr names, rfl⟩
  refine ⟨accepted, ?_⟩
  intro item keyword model given read
  obtain ⟨choice, default, selected, same⟩ := chosen item model read
  obtain ⟨strategy, rfl, names⟩ := (accepted _ keyword given choice).mp selected
  rwa [← same]

/-- The spelling of keywords does not matter anywhere in a document, and keywords are accepted by
the names of their members and by nothing else. -/
theorem load_of_respelled :
    (∀ document written item other, Xml.read? document = some item →
      Xml.read? written = some other → Respelled item other →
      (∃ registry, load document = .ok registry ∧ load written = .ok registry) ∨
        ∃ error cause, load document = .error error ∧ load written = .error cause ∧
          error.folded = cause.folded) ∧
    (AcceptsOperators Comparison.read Comparison.name "SimplePredicate" "operator"
      fun operator predicate => ∃ field literal, predicate = .compare field operator literal) ∧
    (AcceptsOperators Membership.read Membership.name "SimpleSetPredicate" "booleanOperator"
      fun operator predicate => ∃ field values, predicate = .member field operator values) ∧
    (AcceptsOperators Connective.read Connective.name "CompoundPredicate" "booleanOperator"
      fun operator predicate => ∃ operands, predicate = .compound operator operands) ∧
    AcceptsStrategies Split.read Split.name "splitCharacteristic" (·.split) ∧
    AcceptsStrategies MissingValueStrategy.read MissingValueStrategy.name "missingValueStrategy"
      (·.strategies.missingValue) ∧
    AcceptsStrategies NoTrueChildStrategy.read NoTrueChildStrategy.name "noTrueChildStrategy"
      (·.strategies.noTrueChild) := by
  refine ⟨?_, ?_, ?_, ?_, ?_, ?_, ?_⟩
  · intro document written item other read readOther respelled
    exact (load_agree read readOther respelled).cases
  · apply acceptsOperators (fun _ _ => Comparison.read_eq_ok_iff)
      fun operator => by cases operator <;> decide
    intro item predicate named read
    rw [readPredicate_comparison named, readComparison_eq_ok_iff] at read
    obtain ⟨field, operator, literal, _, spelled, _, same⟩ := read
    exact ⟨operator, spelled, field, literal, same⟩
  · apply acceptsOperators (fun _ _ => Membership.read_eq_ok_iff)
      fun operator => by cases operator <;> decide
    intro item predicate named read
    rw [readPredicate_membership named, readMembership_eq_ok_iff] at read
    obtain ⟨field, operator, array, _, spelled, _, same⟩ := read
    exact ⟨operator, spelled, field, _, same⟩
  · apply acceptsOperators (fun _ _ => Connective.read_eq_ok_iff)
      fun operator => by cases operator <;> decide
    intro item predicate named read
    obtain ⟨operator, operands, spelled, _, _, same⟩ :=
      (readPredicate_compound_eq_ok_iff named).mp read
    exact ⟨operator, spelled, operands, same⟩
  · apply acceptsStrategies (fun _ _ => Split.read_eq_ok_iff)
      fun strategy => by cases strategy <;> decide
    intro item model read
    obtain ⟨split, chosen, same⟩ := (readModel_eq_ok_iff.mp read).2.2.1
    exact ⟨split, .multi, chosen, same⟩
  · apply acceptsStrategies (fun _ _ => MissingValueStrategy.read_eq_ok_iff)
      fun strategy => by cases strategy <;> decide
    intro item model read
    obtain ⟨missingValue, _, chosen, _, same⟩ := (readModel_eq_ok_iff.mp read).2.2.2.1
    exact ⟨missingValue, _, chosen, congrArg Strategies.missingValue same⟩
  · apply acceptsStrategies (fun _ _ => NoTrueChildStrategy.read_eq_ok_iff)
      fun strategy => by cases strategy <;> decide
    intro item model read
    obtain ⟨_, noTrueChild, _, chosen, same⟩ := (readModel_eq_ok_iff.mp read).2.2.2.1
    exact ⟨noTrueChild, _, chosen, congrArg Strategies.noTrueChild same⟩

def splitDocument (split operator : String) : String :=
  "<PMML><TreeModel splitCharacteristic='" ++ split ++
    "'><Node><SimplePredicate field='a' operator='" ++ operator ++ "'/></Node></TreeModel></PMML>"

def splitting (split operator : String) : Content :=
  .element ⟨"", "PMML"⟩ [] [.element ⟨"", "TreeModel"⟩ [⟨⟨"", "splitCharacteristic"⟩, split⟩]
    [.element ⟨"", "Node"⟩ [] [.element ⟨"", "SimplePredicate"⟩
      [⟨⟨"", "field"⟩, "a"⟩, ⟨⟨"", "operator"⟩, operator⟩] []]]]

def splitRegistry : Registry where
  models := Table.empty.insert "model-0" {
    root := { predicate := .compare "a" .isMissing none } }

set_option maxRecDepth 2000 in
private theorem read?_splitting : Xml.read? (splitDocument "multiSplit" "isMissing") =
    some (splitting "multiSplit" "isMissing") := by
  have chars : (splitDocument "multiSplit" "isMissing").toList = _ :=
    toList_append_ofList (toList_append_ofList (toList_append_ofList
      (toList_append_ofList String.toList_ofList)))
  rw [Xml.read?, Xml.tokens?, chars]
  rfl

set_option maxRecDepth 2000 in
private theorem read?_splitting_respelled : Xml.read? (splitDocument " MultiSPLIT" "ISMissing ") =
    some (splitting " MultiSPLIT" "ISMissing ") := by
  have chars : (splitDocument " MultiSPLIT" "ISMissing ").toList = _ :=
    toList_append_ofList (toList_append_ofList (toList_append_ofList
      (toList_append_ofList String.toList_ofList)))
  rw [Xml.read?, Xml.tokens?, chars]
  rfl

theorem load_of_respelled_splitting :
    Xml.read? (splitDocument "multiSplit" "isMissing") =
        some (splitting "multiSplit" "isMissing") ∧
      Xml.read? (splitDocument " MultiSPLIT" "ISMissing ") =
        some (splitting " MultiSPLIT" "ISMissing ") ∧
      Respelled (splitting "multiSplit" "isMissing") (splitting " MultiSPLIT" "ISMissing ") ∧
      ∃ registry, load (splitDocument "multiSplit" "isMissing") = .ok registry ∧
        load (splitDocument " MultiSPLIT" "ISMissing ") = .ok registry := by
  have split : Respells "multiSplit" " MultiSPLIT" :=
    @Respells.intro _ _ "multiSplit".toList "MultiSPLIT".toList (by decide) (.self _)
      (@Padded.blanks "MultiSPLIT".toList [' '] [] (by decide) (by decide))
  have operator : Respells "isMissing" "ISMissing " :=
    @Respells.intro _ _ "isMissing".toList "ISMissing".toList (by decide) (.self _)
      (@Padded.blanks "ISMissing".toList [] [' '] (by decide) (by decide))
  have respelled : Respelled (splitting "multiSplit" "isMissing")
      (splitting " MultiSPLIT" "ISMissing ") := by
    refine .element .nil (.cons (.element (.cons (.keyword (by decide) split) .nil) ?_) .nil)
    refine .cons (.element .nil (.cons (.element ?_ .nil) .nil)) .nil
    exact .cons (.keep _) (.cons (.keyword (by decide) operator) .nil)
  have accepted : load (splitDocument "multiSplit" "isMissing") = .ok splitRegistry := by
    rw [load, read?_splitting]
    rfl
  refine ⟨read?_splitting, read?_splitting_respelled, respelled, ?_⟩
  rcases load_of_respelled.1 _ _ _ _ read?_splitting read?_splitting_respelled respelled with
    loaded | ⟨error, _, failed, _⟩
  · exact loaded
  · rw [accepted] at failed
    cases failed

end Pmml
end DecisionTree
