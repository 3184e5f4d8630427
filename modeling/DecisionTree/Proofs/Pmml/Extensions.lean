import DecisionTree.Proofs.Pmml.Remarks

namespace DecisionTree.Pmml

open Xml (Content Attribute)

variable {content others inner : List Content} {free : Bool}

/-- The second content is the first one with extensions put into it, at any depth but not right into
an array. On the outermost level they are put in only where it is free to them, and then a text may
be divided by one. -/
inductive Extended : Bool → List Content → List Content → Prop
  | nil {free : Bool} : Extended free [] []
  | keep {free : Bool} {content others : List Content} {item : Content}
      (inert : item.tag? = none) (rest : Extended free content others) :
      Extended free (item :: content) (item :: others)
  | element {free : Bool} {content others inner extended : List Content} (name : Xml.Name)
      (attributes : List Attribute) (within : Extended (name.localName != "Array") inner extended)
      (rest : Extended free content others) :
      Extended free (.element name attributes inner :: content)
        (.element name attributes extended :: others)
  | extension {content others : List Content} {item : Content}
      (extension : item.tag? = some "Extension") (rest : Extended true content others) :
      Extended true content (item :: others)
  | divide {content others : List Content} {item : Content} (before later : String)
      (extension : item.tag? = some "Extension")
      (rest : Extended true (.text later :: content) others) :
      Extended true (.text (before ++ later) :: content) (.text before :: item :: others)

theorem Extended.cons (item : Content) (rest : Extended free content others) :
    Extended free (item :: content) (item :: others) := by
  induction item using Content.induction generalizing free content others with
  | text | comment | instruction => exact .keep rfl rest
  | element name attributes inner ih =>
    refine .element name attributes ?_ rest
    generalize (name.localName != "Array") = inside
    induction inner with
    | nil => exact .nil
    | cons item inner again =>
      obtain ⟨head, tail⟩ := List.forall_mem_cons.mp ih
      exact head (again tail)

/-- No extension may be put in. -/
theorem Extended.refl (content : List Content) : Extended free content content := by
  induction content with
  | nil => exact .nil
  | cons item _ ih => exact .cons item ih

/-- Where no extensions are put in, the leading text stays. -/
theorem Extended.leadingText?_eq (extended : Extended false content others) :
    Xml.leadingText? others = Xml.leadingText? content := by
  cases extended with
  | nil | element => rfl
  | @keep _ _ _ item => cases item <;> rfl

theorem Extended.values {name : Xml.Name}
    (extended : Extended (name.localName != "Array") content others)
    (array : name.localName = "Array") : valuesIn content = valuesIn others := by
  rw [array] at extended
  rw [valuesIn, valuesIn, extended.leadingText?_eq]

private theorem isOperand_of_extension {item : Content} (extension : item.tag? = some "Extension") :
    isOperand item = false := by
  rw [isOperand_of_tag extension]
  rfl

/-- Readers see the elements that were there, and see no difference in them. -/
theorem alike_of_extended (extended : Extended free content others) :
    List.Forall₂ (Alike fun literals => literals) (relevant content) (relevant others) := by
  induction extended with
  | nil => exact .nil
  | keep inert _ ih =>
    have skipped := isOperand_of_no_tag inert
    rwa [relevant_cons_of_neg skipped, relevant_cons_of_neg skipped]
  | @element free content others inner extended name attributes inside _ within ih =>
    have same : isOperand (.element name attributes extended) =
        isOperand (.element name attributes inner) := rfl
    cases chosen : isOperand (.element name attributes inner) with
    | true =>
      rw [relevant_cons_of_pos chosen, relevant_cons_of_pos (same.trans chosen)]
      exact .cons (.intro within inside.values) ih
    | false => rwa [relevant_cons_of_neg chosen, relevant_cons_of_neg (same.trans chosen)]
  | extension extension _ ih => rwa [relevant_cons_of_neg (isOperand_of_extension extension)]
  | divide before later extension _ ih =>
    have text (text : String) : isOperand (.text text) = false := isOperand_of_no_tag rfl
    rw [relevant_cons_of_neg (text later)] at ih
    rwa [relevant_cons_of_neg (text _), relevant_cons_of_neg (text before),
      relevant_cons_of_neg (isOperand_of_extension extension)]

/-- Extensions change neither what a document is read to nor why it fails. -/
theorem load_of_extended {name : Xml.Name} {attributes : List Attribute}
    (extended : Extended (name.localName != "Array") content others) :
    readDocument (.element name attributes others) =
        readDocument (.element name attributes content) ∧
      ∀ document other, Xml.read? document = some (.element name attributes content) →
        Xml.read? other = some (.element name attributes others) → load other = load document := by
  have same : readDocument (.element name attributes others) =
      readDocument (.element name attributes content) := by
    have alike : Alike (fun literals => literals) (.element name attributes content)
        (.element name attributes others) := .intro (alike_of_extended extended) extended.values
    have read := readDocument_of_alike alike
    rw [Registry.mapSets_id, Except.map_id] at read
    exact read.symm
  refine ⟨same, fun document other whole more => ?_⟩
  rw [load, load, whole, more]
  exact same

/-- An extension that imitates a predicate and a node. -/
def imitation : Content :=
  .element ⟨"", "Extension"⟩ [] [.element ⟨"", "True"⟩ [] [], .element ⟨"", "Node"⟩ [] []]

set_option maxRecDepth 2000 in
private theorem read?_sizes_extended : Xml.read?
    (sizesDocument "<Extension><True/><Node/></Extension>" "S M") =
      some (sizes [imitation] [.text "S M"]) := by
  have chars : (sizesDocument "<Extension><True/><Node/></Extension>" "S M").toList = _ :=
    toList_append_ofList (toList_append_ofList (toList_append_ofList
      (toList_append_ofList String.toList_ofList)))
  rw [Xml.read?, Xml.tokens?, chars]
  rfl

theorem load_of_extended_sizes :
    Xml.read? (sizesDocument "" "S M") = some (sizes [] [.text "S M"]) ∧
      Xml.read? (sizesDocument "<Extension><True/><Node/></Extension>" "S M") =
        some (sizes [imitation] [.text "S M"]) ∧
      load (sizesDocument "<Extension><True/><Node/></Extension>" "S M") =
        load (sizesDocument "" "S M") := by
  have extended : Extended ("PMML" != "Array") (contentOf (sizes [] [.text "S M"]))
      (contentOf (sizes [imitation] [.text "S M"])) :=
    .element _ _ (.element _ _ (.extension rfl (.refl _)) .nil) .nil
  exact ⟨read?_sizes, read?_sizes_extended,
    (load_of_extended extended).2 _ _ read?_sizes read?_sizes_extended⟩

end DecisionTree.Pmml
