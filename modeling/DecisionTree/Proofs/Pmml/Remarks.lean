import DecisionTree.Proofs.Pmml.Alike

/-!
Comments and processing instructions in documents. Deleting some of them changes what a document is
loaded to in the sets of membership tests at most, and changes nothing as long as every array keeps
the values in its leading text. An array has no values behind the first comment or instruction in
it, so that deleting one there can add values.
-/

namespace DecisionTree.Pmml

open Xml (Content Attribute)

variable {change : List String → List String} {inArrays wider : List Content → List Content → Prop}
  {content others : List Content} {root stripped : Content}

/-- Content with a text in front, joined to the text that content begins with. -/
def joinText (text : String) : List Content → List Content
  | .text later :: rest => .text (text ++ later) :: rest
  | rest => .text text :: rest

/-- The second content is the first one without some of the comments and instructions in it, at any
depth. Texts that nothing separates any longer are joined. The contents of each array are related
as stated. -/
inductive Deletes (inArrays : List Content → List Content → Prop) :
    List Content → List Content → Prop
  | nil : Deletes inArrays [] []
  | comment {content others : List Content} (rest : Deletes inArrays content others) :
      Deletes inArrays (.comment :: content) others
  | instruction {content others : List Content} (rest : Deletes inArrays content others) :
      Deletes inArrays (.instruction :: content) others
  | keepComment {content others : List Content} (rest : Deletes inArrays content others) :
      Deletes inArrays (.comment :: content) (.comment :: others)
  | keepInstruction {content others : List Content} (rest : Deletes inArrays content others) :
      Deletes inArrays (.instruction :: content) (.instruction :: others)
  | text {content others : List Content} (text : String)
      (rest : Deletes inArrays content others) :
      Deletes inArrays (.text text :: content) (joinText text others)
  | element {content others inner stripped : List Content} (name : Xml.Name)
      (attributes : List Attribute) (within : Deletes inArrays inner stripped)
      (array : name.localName = "Array" → inArrays inner stripped)
      (rest : Deletes inArrays content others) :
      Deletes inArrays (.element name attributes inner :: content)
        (.element name attributes stripped :: others)

/-- Whatever an array contains. -/
def Anything (_ _ : List Content) : Prop :=
  True

/-- The leading texts have the same values. -/
def SameValues (content others : List Content) : Prop :=
  valuesIn content = valuesIn others

theorem Deletes.mono
    (weaker : ∀ content others, Deletes wider content others → inArrays content others →
      wider content others)
    (deletes : Deletes inArrays content others) : Deletes wider content others := by
  induction deletes with
  | nil => exact .nil
  | comment _ ih => exact .comment ih
  | instruction _ ih => exact .instruction ih
  | keepComment _ ih => exact .keepComment ih
  | keepInstruction _ ih => exact .keepInstruction ih
  | text text _ ih => exact .text text ih
  | @element _ _ inner stripped name attributes _ array _ within ih =>
    refine .element name attributes within ?_ ih
    intro named
    exact weaker inner stripped within (array named)

/-- There is no text behind other content. -/
def TextFirst (content : List Content) : Prop :=
  ∀ text, .text text ∉ content.tail

private theorem leadingText?_eq_none (textless : ∀ text, .text text ∉ content) :
    Xml.leadingText? content = none := by
  unfold Xml.leadingText?
  split
  next text rest => exact absurd List.mem_cons_self (textless text)
  next => rfl

private theorem Deletes.textless (deletes : Deletes inArrays content others)
    (textless : ∀ text, .text text ∉ content) (text : String) : .text text ∉ others := by
  induction deletes with
  | nil => exact textless text
  | comment _ ih | instruction _ ih =>
    apply ih
    intro text member
    exact textless text (List.mem_cons_of_mem _ member)
  | keepComment _ ih | keepInstruction _ ih | element _ _ _ _ _ _ ih =>
    have rest := ih fun text member => textless text (List.mem_cons_of_mem _ member)
    simp [rest]
  | text text => exact absurd List.mem_cons_self (textless text)

private theorem Deletes.leadingText?_eq (deletes : Deletes inArrays content others)
    (first : TextFirst content) : Xml.leadingText? others = Xml.leadingText? content := by
  cases deletes with
  | nil | keepComment | keepInstruction | element => rfl
  | comment rest | instruction rest => exact leadingText?_eq_none (rest.textless first)
  | text text rest =>
    unfold joinText
    split
    next later others => exact absurd List.mem_cons_self (rest.textless first later)
    next => rfl

/-- Arrays in which no text stands behind other content keep their values. -/
theorem Deletes.sameValues (deletes : Deletes (fun inner _ => TextFirst inner) content others) :
    Deletes SameValues content others := by
  apply deletes.mono
  intro inner stripped within first
  rw [SameValues, valuesIn, valuesIn, within.leadingText?_eq first]

private theorem relevant_joinText (text : String) (content : List Content) :
    relevant (joinText text content) = relevant content := by
  unfold joinText
  split
  next => rfl
  next => rfl

/-- Deleting comments and instructions leaves the elements, and leaves them alike. -/
theorem alike_of_deletes
    (deletes : Deletes (fun inner stripped => change (valuesIn inner) = change (valuesIn stripped))
      content others) :
    List.Forall₂ (Alike change) (relevant content) (relevant others) := by
  induction deletes with
  | nil => exact .nil
  | comment _ ih | instruction _ ih | keepComment _ ih | keepInstruction _ ih => exact ih
  | text text _ ih =>
    rw [relevant_joinText]
    exact ih
  | @element content others inner stripped name attributes _ array _ within ih =>
    have same : isOperand (.element name attributes stripped) =
        isOperand (.element name attributes inner) := rfl
    cases chosen : isOperand (.element name attributes inner) with
    | true =>
      rw [relevant_cons_of_pos chosen, relevant_cons_of_pos (same.trans chosen)]
      exact .cons (.intro within array) ih
    | false =>
      rw [relevant_cons_of_neg chosen, relevant_cons_of_neg (same.trans chosen)]
      exact ih

private theorem readDocument_of_deletes
    (deletes : Deletes (fun inner stripped => change (valuesIn inner) = change (valuesIn stripped))
      [root] [stripped]) :
    (readDocument root).map (Registry.mapSets change) =
      (readDocument stripped).map (Registry.mapSets change) := by
  generalize content : [root] = whole at deletes
  generalize remaining : [stripped] = rest at deletes
  cases deletes with
  | nil => cases content
  | comment rest =>
    cases content
    cases rest
    cases remaining
  | instruction rest =>
    cases content
    cases rest
    cases remaining
  | keepComment rest | keepInstruction rest =>
    cases content
    cases remaining
    rfl
  | text text rest =>
    cases content
    cases rest
    cases remaining
    rfl
  | element name attributes within array rest =>
    cases content
    cases remaining
    exact readDocument_of_alike (.intro (alike_of_deletes within) array)

/-- Documents from which comments and instructions are deleted fail for the same reason or are
loaded to registries that differ in their sets at most, and to the same registry provided that the
arrays keep their values. -/
theorem load_of_deletes {document other : String} (whole : Xml.read? document = some root)
    (rest : Xml.read? other = some stripped) (deletes : Deletes Anything [root] [stripped]) :
    (load document).map Registry.withoutSets = (load other).map Registry.withoutSets ∧
      (Deletes SameValues [root] [stripped] → load document = load other) := by
  rw [load, load, whole, rest]
  constructor
  · apply readDocument_of_deletes
    exact deletes.mono fun _ _ _ _ => rfl
  · intro keeps
    have same : (readDocument root).map (Registry.mapSets fun literals => literals) =
        (readDocument stripped).map (Registry.mapSets fun literals => literals) :=
      readDocument_of_deletes keeps
    rwa [Registry.mapSets_id, Except.map_id] at same

/-- The root element of a document with one node, which asks whether a size is among the values of
an array. -/
def sizes (remarks array : List Content) : Content :=
  let query := .element ⟨"", "SimpleSetPredicate"⟩
    [⟨⟨"", "field"⟩, "size"⟩, ⟨⟨"", "booleanOperator"⟩, "isIn"⟩] [.element ⟨"", "Array"⟩ [] array]
  .element ⟨"", "PMML"⟩ []
    [.element ⟨"", "TreeModel"⟩ [] [.element ⟨"", "Node"⟩ [] (remarks ++ [query])]]

theorem deletes_sizes {remarks others inner stripped : List Content}
    (within : Deletes inArrays inner stripped) (array : inArrays inner stripped)
    (front : ∀ content rest, Deletes inArrays content rest →
      Deletes inArrays (remarks ++ content) (others ++ rest)) :
    Deletes inArrays [sizes remarks inner] [sizes others stripped] := by
  refine .element _ _ (.element _ _ (.element _ _ (front _ _ (.element _ _
    (.element _ _ within (fun _ => array) .nil) ?_ .nil)) ?_ .nil) ?_ .nil) ?_ .nil
  all_goals exact fun named => absurd named (by decide)

def sizesDocument (remarks array : String) : String :=
  "<PMML><TreeModel><Node>" ++ remarks
    ++ "<SimpleSetPredicate field=\"size\" booleanOperator=\"isIn\"><Array>" ++ array
    ++ "</Array></SimpleSetPredicate></Node></TreeModel></PMML>"

/-- The registry of such a document, in which the array has these values. -/
def sizesRegistry (values : List String) : Registry where
  models := Table.empty.insert "model-0" { root := { predicate := .member "size" .isIn values } }

theorem toList_append_ofList {front : String} {cs ds : List Char} (known : front.toList = cs) :
    (front ++ String.ofList ds).toList = cs ++ ds := by
  rw [String.toList_append, known, String.toList_ofList]

set_option maxRecDepth 2000 in
theorem read?_sizes : Xml.read? (sizesDocument "" "S M") =
    some (sizes [] [.text "S M"]) := by
  have chars : (sizesDocument "" "S M").toList = _ :=
    toList_append_ofList (toList_append_ofList (toList_append_ofList
      (toList_append_ofList String.toList_ofList)))
  rw [Xml.read?, Xml.tokens?, chars]
  rfl

set_option maxRecDepth 2000 in
private theorem read?_sizes_remarked : Xml.read? (sizesDocument "<!--a--><?b?>" "S M<!--c-->") =
    some (sizes [.comment, .instruction] [.text "S M", .comment]) := by
  have chars : (sizesDocument "<!--a--><?b?>" "S M<!--c-->").toList = _ :=
    toList_append_ofList (toList_append_ofList (toList_append_ofList
      (toList_append_ofList String.toList_ofList)))
  rw [Xml.read?, Xml.tokens?, chars]
  rfl

theorem load_of_deletes_sizes :
    Xml.read? (sizesDocument "<!--a--><?b?>" "S M<!--c-->") =
        some (sizes [.comment, .instruction] [.text "S M", .comment]) ∧
      Xml.read? (sizesDocument "" "S M") = some (sizes [] [.text "S M"]) ∧
      load (sizesDocument "<!--a--><?b?>" "S M<!--c-->") = load (sizesDocument "" "S M") := by
  have deletes : Deletes (fun inner _ => TextFirst inner)
      [sizes [.comment, .instruction] [.text "S M", .comment]] [sizes [] [.text "S M"]] := by
    refine deletes_sizes ?_ (by simp [TextFirst]) fun _ _ rest => .comment (.instruction rest)
    exact .text "S M" (.comment .nil)
  have anywhere := deletes.mono fun _ _ _ _ => trivial
  exact ⟨read?_sizes_remarked, read?_sizes,
    (load_of_deletes read?_sizes_remarked read?_sizes anywhere).2 deletes.sameValues⟩

set_option maxRecDepth 2000 in
private theorem read?_sizes_divided : Xml.read? (sizesDocument "" "S <!--c-->M") =
    some (sizes [] [.text "S ", .comment, .text "M"]) := by
  have chars : (sizesDocument "" "S <!--c-->M").toList = _ :=
    toList_append_ofList (toList_append_ofList (toList_append_ofList
      (toList_append_ofList String.toList_ofList)))
  rw [Xml.read?, Xml.tokens?, chars]
  rfl

/-- A comment between the values of an array takes the value behind it away. -/
theorem load_sizes_divided :
    Xml.read? (sizesDocument "" "S <!--c-->M") =
        some (sizes [] [.text "S ", .comment, .text "M"]) ∧
      Xml.read? (sizesDocument "" "S M") = some (sizes [] [.text "S M"]) ∧
      Deletes Anything [sizes [] [.text "S ", .comment, .text "M"]] [sizes [] [.text "S M"]] ∧
      load (sizesDocument "" "S <!--c-->M") = .ok (sizesRegistry ["S"]) ∧
      load (sizesDocument "" "S M") = .ok (sizesRegistry ["S", "M"]) ∧
      load (sizesDocument "" "S <!--c-->M") ≠ load (sizesDocument "" "S M") := by
  have array : Deletes Anything [.text "S ", .comment, .text "M"] [.text "S M"] :=
    .text "S " (.comment (.text "M" .nil))
  have divided : load (sizesDocument "" "S <!--c-->M") = .ok (sizesRegistry ["S"]) := by
    rw [load, read?_sizes_divided]
    rfl
  have joined : load (sizesDocument "" "S M") = .ok (sizesRegistry ["S", "M"]) := by
    rw [load, read?_sizes]
    rfl
  refine ⟨read?_sizes_divided, read?_sizes, deletes_sizes array trivial fun _ _ rest => rest,
    divided, joined, ?_⟩
  rw [divided, joined]
  intro same
  have predicates := congrArg
    (fun loaded => (loaded.toOption.bind Registry.single?).map (·.root.predicate)) same
  cases predicates

end DecisionTree.Pmml
