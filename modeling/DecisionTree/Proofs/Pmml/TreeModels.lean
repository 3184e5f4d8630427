import DecisionTree.Proofs.Pmml.Registration

namespace DecisionTree.Pmml

open Xml (Content)

variable {models between : Table Model} {registry : Registry} {number : Nat}
  {content items : List Content} {item later root : Content} {error : LoadError}

/-- The element is read, and its model put under its key, which is new. -/
def Registers (models : Table Model) (number : Nat) (item : Content) (between : Table Model) :
    Prop :=
  ∃ model, readModel item = .ok model ∧ models.contains (elementKey number item) = false ∧
    models.insert (elementKey number item) model = between

/-- All elements are read, under keys that are distinct and new. -/
structure Accepted (models : Table Model) (number : Nat) (items : List Content) : Prop where
  read : ∀ item ∈ items, ∃ model, readModel item = .ok model
  distinct : (elementKeys number items).Nodup
  fresh : ∀ key ∈ elementKeys number items, models.contains key = false

/-- Why an element behind others is refused: it cannot be read, or its key is taken. -/
inductive Refused (models : Table Model) (number : Nat) (before : List Content) (item : Content) :
    LoadError → Prop
  | unreadable {error : LoadError} (failure : readModel item = .error error) :
      Refused models number before item error
  | repeated {model : Model} (read : readModel item = .ok model)
      (taken : elementKey (number + before.length) item ∈ elementKeys number before ∨
        models.contains (elementKey (number + before.length) item) = true) :
      Refused models number before item
        (.duplicateModel (elementKey (number + before.length) item))

/-- The first element that is refused is so for this reason. -/
def FailsAt (models : Table Model) (number : Nat) (items : List Content) (error : LoadError) :
    Prop :=
  ∃ before item after, items = before ++ item :: after ∧ Accepted models number before ∧
    Refused models number before item error

private theorem accepted_nil : Accepted models number [] where
  read := fun _ absent => nomatch absent
  distinct := List.nodup_nil
  fresh := fun _ absent => nomatch absent

theorem accepted_cons_iff :
    Accepted models number (item :: items) ↔
      ∃ between, Registers models number item between ∧ Accepted between (number + 1) items := by
  constructor
  · rintro ⟨read, distinct, fresh⟩
    obtain ⟨⟨model, first⟩, read⟩ := List.forall_mem_cons.mp read
    rw [elementKeys_cons] at distinct fresh
    obtain ⟨different, distinct⟩ := List.nodup_cons.mp distinct
    obtain ⟨absent, fresh⟩ := List.forall_mem_cons.mp fresh
    refine ⟨_, ⟨model, first, absent, rfl⟩, read, distinct, ?_⟩
    intro key member
    apply Table.contains_insert_eq_false_iff.mpr
    constructor
    · rintro rfl
      exact different member
    · exact fresh key member
  · rintro ⟨_, ⟨model, first, absent, rfl⟩, read, distinct, fresh⟩
    have apart (key : String) (member : key ∈ elementKeys (number + 1) items) :=
      Table.contains_insert_eq_false_iff.mp (fresh key member)
    refine ⟨List.forall_mem_cons.mpr ⟨⟨model, first⟩, read⟩, ?_, ?_⟩
    · rw [elementKeys_cons, List.nodup_cons]
      refine ⟨?_, distinct⟩
      intro member
      exact (apart _ member).1 rfl
    · rw [elementKeys_cons, List.forall_mem_cons]
      refine ⟨absent, ?_⟩
      intro key member
      exact (apart key member).2

theorem refused_cons_iff (registers : Registers models number item between) :
    Refused models number (item :: items) later error ↔
      Refused between (number + 1) items later error := by
  obtain ⟨model, read, -, rfl⟩ := registers
  have place : number + (item :: items).length = number + 1 + items.length := by
    rw [List.length_cons]
    omega
  have taken (key : String) :
      (key ∈ elementKeys number (item :: items) ∨ models.contains key = true) ↔
        (key ∈ elementKeys (number + 1) items ∨
          (models.insert (elementKey number item) model).contains key = true) := by
    rw [elementKeys_cons, List.mem_cons, ← Bool.not_eq_false, ← Bool.not_eq_false,
      Table.contains_insert_eq_false_iff]
    tauto
  constructor
  · intro refused
    cases refused with
    | unreadable failure => exact .unreadable failure
    | repeated read known =>
      rw [place] at known ⊢
      exact .repeated read ((taken _).mp known)
  · intro refused
    cases refused with
    | unreadable failure => exact .unreadable failure
    | repeated read known =>
      rw [← place] at known ⊢
      exact .repeated read ((taken _).mpr known)

theorem refused_first_iff :
    Refused models number [] item error ↔
      readModel item = .error error ∨
        (∃ model, readModel item = .ok model) ∧ models.contains (elementKey number item) = true ∧
          error = .duplicateModel (elementKey number item) := by
  constructor
  · intro refused
    cases refused with
    | unreadable failure => exact .inl failure
    | repeated read taken =>
      rcases taken with earlier | taken
      · cases earlier
      · exact .inr ⟨⟨_, read⟩, taken, rfl⟩
  · rintro (failure | ⟨⟨model, read⟩, taken, rfl⟩)
    · exact .unreadable failure
    · have repeated : Refused models number [] item _ := .repeated read (.inr taken)
      exact repeated

theorem Registers.unique {again : Table Model} (first : Registers models number item between)
    (second : Registers models number item again) : between = again := by
  obtain ⟨model, read, -, rfl⟩ := first
  obtain ⟨other, read', -, rfl⟩ := second
  rw [read] at read'
  cases read'
  rfl

private theorem Registers.not_refused (registers : Registers models number item between) :
    ¬Refused models number [] item error := by
  obtain ⟨model, read, absent, -⟩ := registers
  rw [refused_first_iff]
  simp [read, absent]

/-- Behind an element that is registered the others fail as they would without it. -/
theorem failsAt_cons_of_registers (registers : Registers models number item between) :
    FailsAt models number (item :: items) error ↔ FailsAt between (number + 1) items error := by
  constructor
  · rintro ⟨before, later, after, split, accepted, refused⟩
    cases before with
    | nil =>
      cases split
      exact absurd refused registers.not_refused
    | cons first before =>
      cases split
      obtain ⟨again, registers', accepted⟩ := accepted_cons_iff.mp accepted
      cases registers.unique registers'
      exact ⟨before, later, after, rfl, accepted, (refused_cons_iff registers).mp refused⟩
  · rintro ⟨before, later, after, rfl, accepted, refused⟩
    exact ⟨item :: before, later, after, rfl, accepted_cons_iff.mpr ⟨between, registers, accepted⟩,
      (refused_cons_iff registers).mpr refused⟩

theorem failsAt_cons_of_not_registers (fails : ∀ between, ¬Registers models number item between) :
    FailsAt models number (item :: items) error ↔ Refused models number [] item error := by
  constructor
  · rintro ⟨before, later, after, split, accepted, refused⟩
    cases before with
    | nil =>
      cases split
      exact refused
    | cons first before =>
      cases split
      obtain ⟨between, registers, -⟩ := accepted_cons_iff.mp accepted
      exact absurd registers (fails between)
  · intro refused
    exact ⟨[], item, items, rfl, accepted_nil, refused⟩

private theorem register_eq {model : Model} (read : readModel item = .ok model) :
    register registry number model =
      if registry.models.contains (elementKey number item) then
        .error (.duplicateModel (elementKey number item))
      else .ok { registry with models := registry.models.insert (elementKey number item) model } := by
  have name : model.name.getD s!"model-{number}" = elementKey number item := by
    rw [elementKey, (readModel_eq_ok_iff.mp read).2.2.2.2.1]
  rw [register, name]

/-- Reading the tree models in content fails at the first one that is refused. -/
theorem readModels_eq_error_iff :
    readModels registry number content = .error error ↔
      FailsAt registry.models number (modelElements content) error := by
  induction content generalizing registry number with
  | nil =>
    constructor
    · intro impossible
      cases impossible
    · rintro ⟨before, item, after, split, -⟩
      cases before <;> cases split
  | cons item rest ih =>
    rw [readModels]
    split
    next named =>
      have other : item.hasTag "TreeModel" = false := Content.hasTag_of_tag named
      rw [ih, modelElements, modelElements, List.filter_cons_of_neg (by simp [other])]
    next named =>
      have model : item.hasTag "TreeModel" = true := Content.hasTag_of_tag named
      rw [modelElements, List.filter_cons_of_pos model, ← modelElements]
      cases outcome : readModel item with
      | error failure =>
        have fails (between : Table Model) : ¬Registers registry.models number item between := by
          rintro ⟨model, read, -⟩
          rw [outcome] at read
          cases read
        rw [failsAt_cons_of_not_registers fails, refused_first_iff, outcome]
        simp [bind, Except.bind]
      | ok model =>
        cases taken : registry.models.contains (elementKey number item) with
        | true =>
          have fails (between : Table Model) : ¬Registers registry.models number item between := by
            rintro ⟨model, -, absent, -⟩
            rw [taken] at absent
            cases absent
          rw [failsAt_cons_of_not_registers fails, refused_first_iff, outcome]
          simp [bind, Except.bind, register_eq outcome, taken, eq_comm]
        | false =>
          have registers : Registers registry.models number item
              (registry.models.insert (elementKey number item) model) :=
            ⟨model, outcome, taken, rfl⟩
          rw [failsAt_cons_of_registers registers]
          simp only [bind, Except.bind, register_eq outcome, taken]
          exact ih
    next notHeader notModel =>
      have other : item.hasTag "TreeModel" = false :=
        Bool.eq_false_iff.mpr fun named => notModel (Content.hasTag_iff.mp named)
      rw [ih, modelElements, modelElements, List.filter_cons_of_neg (by simp [other])]

private theorem not_failsAt_nil : ¬FailsAt models number [] error := by
  rintro ⟨before, item, after, split, -⟩
  cases before <;> cases split

private theorem readDocument_of_tag (tag : root.tag? = some "PMML") :
    readDocument root = (do
      let registry ← readModels { version := Xml.valueOf? "version" (attributesOf root) } 0
        (contentOf root)
      if registry.models.entries.isEmpty then throw .noTreeModel
      return registry) := by
  unfold readDocument
  simp [tag]

theorem readDocument_eq_error_iff (tag : root.tag? = some "PMML") :
    readDocument root = .error error ↔
      (modelElements (contentOf root) = [] ∧ error = .noTreeModel) ∨
        FailsAt Table.empty 0 (modelElements (contentOf root)) error := by
  rw [readDocument_of_tag tag]
  have fails : readModels { version := Xml.valueOf? "version" (attributesOf root) } 0
      (contentOf root) = .error error ↔
        FailsAt Table.empty 0 (modelElements (contentOf root)) error :=
    readModels_eq_error_iff
  rw [← fails]
  cases outcome : readModels { version := Xml.valueOf? "version" (attributesOf root) } 0
      (contentOf root) with
  | error first =>
    have inhabited : modelElements (contentOf root) ≠ [] := by
      intro none
      have failsAt := readModels_eq_error_iff.mp outcome
      rw [none] at failsAt
      exact not_failsAt_nil failsAt
    simp [bind, Except.bind, inhabited]
  | ok registry =>
    rw [← (readModels_eq_ok_iff.mp outcome).isEmpty_iff]
    by_cases empty : registry.models.entries = []
    · simp [bind, Except.bind, empty, throw, throwThe, MonadExceptOf.throw, eq_comm]
    · simp [bind, Except.bind, empty, pure, Except.pure]

theorem accepted_empty_iff :
    Accepted Table.empty 0 items ↔
      (∀ item ∈ items, ∃ model, readModel item = .ok model) ∧ (elementKeys 0 items).Nodup := by
  constructor
  · intro accepted
    exact ⟨accepted.read, accepted.distinct⟩
  · rintro ⟨read, distinct⟩
    exact ⟨read, distinct, fun _ _ => rfl⟩

theorem refused_empty_iff :
    Refused Table.empty 0 items item error ↔
      readModel item = .error error ∨
        (∃ model, readModel item = .ok model) ∧
          elementKey items.length item ∈ elementKeys 0 items ∧
          error = .duplicateModel (elementKey items.length item) := by
  constructor
  · intro refused
    cases refused with
    | unreadable failure => exact .inl failure
    | repeated read taken =>
      rw [Nat.zero_add] at taken ⊢
      rcases taken with earlier | taken
      · exact .inr ⟨⟨_, read⟩, earlier, rfl⟩
      · cases taken
  · rintro (failure | ⟨⟨model, read⟩, earlier, rfl⟩)
    · exact .unreadable failure
    · rw [← Nat.zero_add items.length] at earlier ⊢
      exact .repeated read (.inl earlier)

private theorem elementKeys_getElem? {index : Nat} (found : items[index]? = some item) :
    (elementKeys number items)[index]? = some (elementKey (number + index) item) := by
  rw [elementKeys, List.getElem?_map, List.getElem?_zipIdx, found]
  rfl

private theorem isNew_empty {entries : List (String × Model)}
    (distinct : (entries.map (·.1)).Nodup) :
    Table.empty.IsNew entries :=
  ⟨distinct, fun _ _ => rfl⟩

/-- The models that are registered are the tree models, each under its key. -/
theorem models_of_readDocument (read : readDocument root = .ok registry) :
    ∃ models, (modelElements (contentOf root)).mapM readModel = .ok models ∧
      ((elementKeys 0 (modelElements (contentOf root))).zip models).length =
        (modelElements (contentOf root)).length ∧
      Table.empty.IsNew ((elementKeys 0 (modelElements (contentOf root))).zip models) ∧
      registry.models =
        Table.empty.insertAll ((elementKeys 0 (modelElements (contentOf root))).zip models) := by
  obtain ⟨-, -, modelsRead⟩ := readDocument_eq_ok_iff.mp read
  obtain ⟨models, each, registered⟩ := modelsRead.models
  have keys : (elementKeys 0 (modelElements (contentOf root))).length =
      (modelElements (contentOf root)).length := by simp [elementKeys]
  have values := Sequence.length_of_mapM_eq_ok each
  refine ⟨models, each, ?_, ?_, registered.symm⟩
  · rw [List.length_zip, keys, values, Nat.min_self]
  · apply isNew_empty
    rw [List.map_fst_zip (by rw [keys, values])]
    exact modelsRead.distinct

/-- If a document can be read, its tree models are there under their keys, and nothing else is. If
it cannot, there is no tree model, or the first one that is refused is the reason. -/
theorem readDocument_treeModels (tag : root.tag? = some "PMML") :
    (∀ registry, readDocument root = .ok registry →
      registry.models.size = (modelElements (contentOf root)).length ∧
        ∀ (index : Nat) item, (modelElements (contentOf root))[index]? = some item →
          ∃ model, readModel item = .ok model ∧
            registry.models.get? (elementKey index item) = some model) ∧
      ∀ error, readDocument root = .error error ↔
        (modelElements (contentOf root) = [] ∧ error = .noTreeModel) ∨
          ∃ before item after, modelElements (contentOf root) = before ++ item :: after ∧
            (∀ earlier ∈ before, ∃ model, readModel earlier = .ok model) ∧
            (elementKeys 0 before).Nodup ∧
            (readModel item = .error error ∨
              (∃ model, readModel item = .ok model) ∧
                elementKey before.length item ∈ elementKeys 0 before ∧
                error = .duplicateModel (elementKey before.length item)) := by
  constructor
  · intro registry read
    obtain ⟨models, each, length, isNew, registered⟩ := models_of_readDocument read
    rw [registered, Table.size_insertAll isNew, length]
    refine ⟨Nat.zero_add _, ?_⟩
    intro index item found
    have images := congrArg (·[index]?) (Sequence.mapM_eq_ok_iff.mp each)
    simp only [List.getElem?_map, found, Option.map_some] at images
    obtain ⟨model, there, same⟩ := Option.map_eq_some_iff.mp images.symm
    refine ⟨model, same.symm, ?_⟩
    rw [Table.get?_insertAll isNew, Table.get?_empty, Option.none_or]
    apply Table.lookup_of_mem isNew.distinct
    have key : (elementKeys 0 (modelElements (contentOf root)))[index]? =
        some (elementKey (0 + index) item) := elementKeys_getElem? found
    rw [Nat.zero_add] at key
    exact List.mem_of_getElem? (List.getElem?_zip_eq_some.mpr ⟨key, there⟩)
  · intro error
    rw [readDocument_eq_error_iff tag]
    simp only [FailsAt, accepted_empty_iff, refused_empty_iff, and_assoc]

/-- A tree model of one node. -/
def stump (attributes : List Xml.Attribute) : Content :=
  .element ⟨"", "TreeModel"⟩ attributes
    [.element ⟨"", "Node"⟩ [] [.element ⟨"", "True"⟩ [] []]]

/-- The second tree model has the name that the third one would get. -/
def numberTaken : Content :=
  .element ⟨"", "PMML"⟩ [] [stump [], .comment, stump [⟨⟨"", "modelName"⟩, "model-2"⟩],
    .element ⟨"", "Extension"⟩ [] [stump []], stump []]

theorem readDocument_treeModels_numberTaken :
    numberTaken.tag? = some "PMML" ∧ (modelElements (contentOf numberTaken)).length = 3 ∧
      readDocument numberTaken = .error (.duplicateModel "model-2") := by
  refine ⟨rfl, rfl, ((readDocument_treeModels rfl).2 _).mpr (.inr ?_)⟩
  refine ⟨[stump [], stump [⟨⟨"", "modelName"⟩, "model-2"⟩]], stump [], [], rfl, ?_, ?_,
    .inr ⟨⟨_, rfl⟩, ?_, rfl⟩⟩
  · intro earlier member
    rcases List.mem_cons.mp member with rfl | member
    · exact ⟨_, rfl⟩
    · cases List.mem_singleton.mp member
      exact ⟨_, rfl⟩
  · decide
  · decide

end DecisionTree.Pmml
