import DecisionTree.Xml.Content
import DecisionTree.Xml.Reference

/-!
From tokens to the root element of a document. Every element is closed by a tag of its own name,
there is one root, and nothing but space, comments and instructions stands beside it. Qualifiers
of names have to be bound to name spaces, and no two attributes of an element may have the same
name in the same name space.
-/

namespace DecisionTree.Xml

/-- The name space of the qualifier `xml`, which no other qualifier may be bound to. -/
def reservedSpace : String := "http://www.w3.org/XML/1998/namespace"

/-- The name space of bindings themselves, which nothing may be bound to. -/
def bindingSpace : String := "http://www.w3.org/2000/xmlns/"

/-- Qualifiers with the name spaces they are bound to; the first binding of a qualifier counts. -/
abbrev Scope := List (String × String)

/-- The scope with the bindings among attributes. The qualifier `xml` has its own name space and
no other has it; a qualifier is bound once. A local name `xmlns` binds the names without qualifier,
which needs no place in the scope, because elements are known by their local names. -/
def bind? (bound : Scope) : List Attribute → Option Scope
  | [] => some bound
  | ⟨name, uri⟩ :: rest =>
    if name.qualifier = "xmlns" then
      if uri = bindingSpace ∨ (name.localName = "xml" ↔ uri ≠ reservedSpace)
          ∨ (bound.lookup name.localName).isSome then none
      else if uri = reservedSpace then bind? bound rest
      else bind? ((name.localName, uri) :: bound) rest
    else if name.localName = "xmlns" then
      if uri = bindingSpace ∨ uri = reservedSpace then none else bind? bound rest
    else bind? bound rest

/-- Whether an attribute binds a qualifier or the names without one. The local name alone tells the
latter, whatever qualifier it has, and the qualifier need not be bound. -/
def isBinding (attr : Attribute) : Bool :=
  attr.name.qualifier == "xmlns" || attr.name.localName == "xmlns"

/-- The name space of an attribute: none without a qualifier. -/
def spaceOf? (scope : Scope) (name : Name) : Option (Option String) :=
  if name.qualifier = "" then some none
  else if name.qualifier = "xml" then some (some reservedSpace)
  else (scope.lookup name.qualifier).map some

/-- Whether all qualifiers are bound and no name occurs twice in one name space. -/
def namesDistinct (scope : Scope) (seen : List (Option String × String)) :
    List Attribute → Bool
  | [] => true
  | attr :: rest =>
    match spaceOf? scope attr.name with
    | none => false
    | some space =>
      !seen.contains (space, attr.name.localName)
        && namesDistinct scope ((space, attr.name.localName) :: seen) rest

def RawAttribute.read? (raw : RawAttribute) : Option Attribute :=
  (readValue? raw.value).map fun value => ⟨raw.name, String.ofList value⟩

structure OpenElement where
  name : Name
  attributes : List Attribute
  scope : Scope
  /-- what stands in it so far, the latest first -/
  content : List Content := []

def OpenElement.close (opened : OpenElement) : Content :=
  .element opened.name opened.attributes opened.content.reverse

/-- What has been read of a document: the elements around the place reached, the innermost first,
and the root once it is closed. -/
structure Progress where
  around : List OpenElement := []
  root : Option Content := none

namespace Progress

def scope (progress : Progress) : Scope :=
  (progress.around.head?.map (·.scope)).getD []

/-- Adds content to the innermost element; outside the root only comments and instructions stand,
which are dropped. -/
def add (progress : Progress) (item : Content) : Progress :=
  match progress.around with
  | [] => progress
  | inner :: outer =>
    { progress with around := { inner with content := item :: inner.content } :: outer }

/-- Adds text to the innermost element, joined to the text right before it. -/
def addText? (progress : Progress) (text : List Char) : Option Progress :=
  match progress.around with
  | [] => none
  | inner :: outer =>
    let content := match inner.content with
      | .text before :: earlier => .text (before ++ String.ofList text) :: earlier
      | earlier => .text (String.ofList text) :: earlier
    some { progress with around := { inner with content } :: outer }

/-- Opens an element. Its own bindings already count for its own names. -/
def open? (progress : Progress) (name : Name) (raw : List RawAttribute) : Option Progress := do
  if progress.around.isEmpty && progress.root.isSome then none
  let attributes ← raw.mapM RawAttribute.read?
  let bindings ← bind? [] attributes
  let scope := bindings ++ progress.scope
  let plain := attributes.filter (!isBinding ·)
  let isBound := name.qualifier == "" ||
    (name.qualifier != "xmlns" && (scope.lookup name.qualifier).isSome)
  if isBound && namesDistinct scope [] plain then
    return { progress with around := ⟨name, plain, scope, []⟩ :: progress.around }
  else none

def close? (progress : Progress) : Option Progress :=
  match progress.around with
  | [] => none
  | [last] => some ⟨[], some last.close⟩
  | inner :: outer :: rest =>
    some { progress with around := { outer with content := inner.close :: outer.content } :: rest }

def step? (progress : Progress) : Token → Option Progress
  | .opening name attributes => progress.open? name attributes
  | .empty name attributes => do
    let opened ← progress.open? name attributes
    opened.close?
  | .closing name =>
    if progress.around.head?.map (·.name) = some name then progress.close? else none
  | .text written =>
    if progress.around.isEmpty then
      if written.all isSpace then some progress else none
    else do
      let text ← readContent? written
      progress.addText? text
  | .marked written => progress.addText? (markedContent written)
  | .comment => some (progress.add .comment)
  | .instruction => some (progress.add .instruction)

end Progress

/-- The root element of a document, or none if the document is not well formed. -/
def read? (document : String) : Option Content := do
  let tokens ← tokens? document
  let progress ← tokens.foldlM Progress.step? {}
  if progress.around.isEmpty then progress.root else none

end DecisionTree.Xml
