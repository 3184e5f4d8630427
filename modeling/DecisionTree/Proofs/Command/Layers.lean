import DecisionTree.Proofs.Command.Stages
import DecisionTree.Proofs.Text.Keyword

/-!
Layers of overrides. Stacked and then applied they come to the same strategies as applied one after
the other, and each strategy is that of the last layer that sets it, whatever the layers say about
the other one. In scoring the arguments are the layer above the settings, and the model is the base.
-/

namespace DecisionTree

namespace Overrides

variable {α : Type} {base value : α} {choice : Option α} {choices : List (Option α)}

/-- What choices on top of one another come to: the last one that is made, or the base if none
is. -/
inductive Settles (base : α) : List (Option α) → α → Prop
  | base {choices : List (Option α)} (unset : ∀ choice ∈ choices, choice = none) :
      Settles base choices base
  | layer {before after : List (Option α)} {value : α} (unset : ∀ choice ∈ after, choice = none) :
      Settles base (before ++ some value :: after) value

/-- The lowest choice makes a base for those above it. -/
theorem Settles.cons (above : Settles (choice.getD base) choices value) :
    Settles base (choice :: choices) value := by
  cases above with
  | base unset =>
    cases choice with
    | none => exact .base (List.forall_mem_cons.mpr ⟨rfl, unset⟩)
    | some value => exact @Settles.layer α base [] _ _ unset
  | @layer before _ _ unset => exact @Settles.layer α base (choice :: before) _ _ unset

private theorem settles_foldl (base : α) (choices : List (Option α)) :
    Settles base choices (choices.foldl (fun below choice => choice.getD below) base) := by
  induction choices generalizing base with
  | nil => exact .base fun _ absent => nomatch absent
  | cons choice choices ih => exact (ih (choice.getD base)).cons

/-- The strategies after each layer has been applied in turn. -/
def applyAll (layers : List Overrides) (base : Strategies) : Strategies :=
  layers.foldl (fun strategies layer => layer.apply strategies) base

/-- A strategy that each layer replaces by its own choice is the last choice. -/
theorem settles_applyAll {strategy : Strategies → α} {setting : Overrides → Option α}
    (replaces : ∀ layer base, strategy (apply layer base) = (setting layer).getD (strategy base))
    (layers : List Overrides) (base : Strategies) :
    Settles (strategy base) (layers.map setting) (strategy (applyAll layers base)) := by
  have settled := settles_foldl (strategy base) (layers.map setting)
  have same : layers.foldl (fun below layer => (setting layer).getD below) (strategy base) =
      strategy (applyAll layers base) :=
    List.foldl_hom strategy fun base layer => (replaces layer base).symm
  rwa [List.foldl_map, same] at settled

theorem apply_under (lower upper : Overrides) (base : Strategies) :
    (lower.under upper).apply base = upper.apply (lower.apply base) := by
  simp only [apply, under, Option.getD_or]

@[simp] theorem empty_under (upper : Overrides) : under {} upper = upper := by
  simp [under]

@[simp] theorem under_empty (lower : Overrides) : lower.under {} = lower := by
  simp [under]

theorem under_assoc (lower middle upper : Overrides) :
    (lower.under middle).under upper = lower.under (middle.under upper) := by
  simp only [under, Option.or_assoc]

instance : Std.Associative under := ⟨under_assoc⟩

theorem foldl_under (lowest : Overrides) (layers : List Overrides) :
    layers.foldl under lowest = lowest.under (stack layers) := by
  calc layers.foldl under lowest = layers.foldl under (lowest.under {}) := by rw [under_empty]
    _ = lowest.under (stack layers) := List.foldl_assoc

theorem stack_cons (layer : Overrides) (layers : List Overrides) :
    stack (layer :: layers) = layer.under (stack layers) := by
  rw [← foldl_under, stack, List.foldl_cons, empty_under]

private theorem stack_append (lower upper : List Overrides) :
    stack (lower ++ upper) = (stack lower).under (stack upper) := by
  rw [← foldl_under, stack, List.foldl_append]
  rfl

/-- Layers that are stacked in groups make the same stack. -/
theorem stack_flatten (groups : List (List Overrides)) :
    stack groups.flatten = stack (groups.map stack) := by
  induction groups with
  | nil => rfl
  | cons group groups ih => rw [List.flatten_cons, stack_append, ih, List.map_cons, stack_cons]

/-- A stack is applied as its layers are, one after the other. -/
theorem apply_stack (layers : List Overrides) (base : Strategies) :
    (stack layers).apply base = applyAll layers base := by
  induction layers generalizing base with
  | nil => rfl
  | cons layer layers ih => rw [stack_cons, apply_under, ih, applyAll, applyAll, List.foldl_cons]

/-- The strategies that a stack comes to, each settled by what the layers say about it. -/
theorem settles_stack (layers : List Overrides) (base : Strategies) :
    Settles base.missingValue (layers.map (·.missingValue))
        ((stack layers).apply base).missingValue ∧
      Settles base.noTrueChild (layers.map (·.noTrueChild))
        ((stack layers).apply base).noTrueChild := by
  rw [apply_stack]
  constructor
  · exact settles_applyAll (fun _ _ => rfl) layers base
  · exact settles_applyAll (fun _ _ => rfl) layers base

end Overrides

namespace Command

open Files (Host)
open Overrides (Settles applyAll)
open Vocabulary (Spells)

variable {host : Host Id} {terminal : Report.Terminal} {settings : Settings}
  {request : ScoreRequest} {model : Model} {record : Record} {given : List Argument}

/-- A strategy is set by the one value given with its switch, and not set without one. -/
inductive GivenAs {α : Type} [Vocabulary α] (name : String) (given : List Argument) :
    Option α → Prop
  | absent (absent : values name given = []) : GivenAs name given none
  | value {keyword : String} {strategy : α} (value : values name given = [keyword])
      (spells : Spells strategy keyword) : GivenAs name given (some strategy)

private theorem givenAs_of_strategy? {α : Type} [Vocabulary α] {name : String} {choice : Option α}
    {read : String → Except UnknownStrategy α}
    (reads : ∀ keyword strategy, read keyword = .ok strategy ↔ Spells strategy keyword)
    (found : strategy? read name given = some choice) : GivenAs name given choice := by
  unfold strategy? single? at found
  rw [Option.bind_eq_bind, Option.bind_eq_some_iff] at found
  obtain ⟨single, said, found⟩ := found
  split at said
  next absent =>
    cases said
    cases found
    exact .absent absent
  next keyword only =>
    cases said
    obtain ⟨strategy, named, rfl⟩ := Option.map_eq_some_iff.mp found
    exact .value only ((reads keyword strategy).mp (Sequence.mem_toOption_iff.mp named))
  next => cases said

/-- The layer that a request puts on top is what its arguments say. -/
theorem givenAs_of_arguments (read : ScoreRequest.ofArguments? given = some request) :
    GivenAs "missing-value-strategy" given request.overrides.missingValue ∧
      GivenAs "no-true-child-strategy" given request.overrides.noTrueChild := by
  unfold ScoreRequest.ofArguments? at read
  simp only [Option.bind_eq_bind, Option.bind_eq_some_iff] at read
  obtain ⟨_, _, read⟩ := read
  split at read
  case h_3 => cases read
  -- with one document and without any the rest is read alike
  all_goals
    simp only [Option.bind_eq_some_iff] at read
    obtain ⟨_, _, _, _, _, _, _, _, missingValue, missing, noTrueChild, fails, built⟩ := read
    cases built
    exact ⟨givenAs_of_strategy? (fun _ _ => MissingValueStrategy.read_eq_ok_iff) missing,
      givenAs_of_strategy? (fun _ _ => NoTrueChildStrategy.read_eq_ok_iff) fails⟩

/-- The layers over a model: what the settings impose, and above it what the request says. -/
def layersOf (settings : Settings) (request : ScoreRequest) : List Overrides :=
  [settings.strategies.getD {}, request.overrides]

/-- What scoring leaves behind for what the model gives, behind the findings about the model. -/
def conclude (terminal : Report.Terminal) (asJson : Bool) (findings : List String) :
    Except ScoreError Prediction → Outcome
  | .ok prediction => ⟨.success, rendered terminal asJson prediction, findings⟩
  | .error error => ⟨.scoring, "", findings ++ ["Scoring error: " ++ error.message]⟩

/-- Once there are a model and a record, the model is scored under its strategies with the layers
stacked on them. -/
theorem runScore_eq_conclude
    (admits : Admits host settings request.document.toList request.model model)
    (built : recordOf host request = .ok record) :
    (runScore host terminal request settings).run =
      conclude terminal (request.asJson || settings.output = .json)
        (findingLines model.displayName model)
        (model.scoreWith ((Overrides.stack (layersOf settings request)).apply model.strategies)
          record) := by
  obtain ⟨_, ⟨sources, _, gathered, -⟩, -⟩ := id admits
  obtain ⟨chosen, usable⟩ := (admits_iff gathered).mp admits
  have stacked : Overrides.stack (layersOf settings request) =
      (settings.strategies.getD {}).under request.overrides := by
    rw [layersOf, Overrides.stack_cons, Overrides.stack_cons]
    exact congrArg _ (Overrides.under_empty _)
  rw [runScore_run, gathered, stacked]
  unfold score
  dsimp only [inputOf]
  rw [chosen]
  unfold scoreModel
  dsimp only
  unfold recordOf at built
  rw [usable, built]
  cases scored : model.scoreWith
      (((settings.strategies.getD {}).under request.overrides).apply model.strategies) record with
  | error error => simp [conclude, scored]
  | ok prediction => simp [conclude, scored]

/-- Stacked layers are applied as one after the other, and each strategy is settled by the last
layer that sets it; how the layers are grouped does not matter. Scoring so settles each strategy by
what its arguments say, or else by the settings, or else by the model. -/
theorem layers_override :
    (∀ layers base, (Overrides.stack layers).apply base = applyAll layers base ∧
      Settles base.missingValue (layers.map (·.missingValue))
        ((Overrides.stack layers).apply base).missingValue ∧
      Settles base.noTrueChild (layers.map (·.noTrueChild))
        ((Overrides.stack layers).apply base).noTrueChild) ∧
    (∀ lowest layers, layers.foldl Overrides.under lowest = Overrides.stack (lowest :: layers)) ∧
    (∀ groups : List (List Overrides), Overrides.stack groups.flatten =
      Overrides.stack (groups.map Overrides.stack)) ∧
    (∀ given request, ScoreRequest.ofArguments? given = some request →
      GivenAs "missing-value-strategy" given request.overrides.missingValue ∧
        GivenAs "no-true-child-strategy" given request.overrides.noTrueChild) ∧
    ∀ (host : Host Id) (terminal : Report.Terminal) (settings : Settings) (request : ScoreRequest)
      (model : Model) (record : Record),
      Admits host settings request.document.toList request.model model →
      recordOf host request = .ok record →
      ∃ strategies : Strategies,
        Settles model.strategies.missingValue
          [(settings.strategies.getD {}).missingValue, request.overrides.missingValue]
          strategies.missingValue ∧
        Settles model.strategies.noTrueChild
          [(settings.strategies.getD {}).noTrueChild, request.overrides.noTrueChild]
          strategies.noTrueChild ∧
        (runScore host terminal request settings).run =
          conclude terminal (request.asJson || settings.output = .json)
            (findingLines model.displayName model) (model.scoreWith strategies record) := by
  refine ⟨fun layers base => ?_, fun lowest layers => ?_, Overrides.stack_flatten,
    fun _ _ => givenAs_of_arguments, ?_⟩
  · exact ⟨Overrides.apply_stack layers base, Overrides.settles_stack layers base⟩
  · rw [Overrides.foldl_under, Overrides.stack_cons]
  · intro host terminal settings request model record admits built
    obtain ⟨missingValue, noTrueChild⟩ :=
      Overrides.settles_stack (layersOf settings request) model.strategies
    exact ⟨_, missingValue, noTrueChild, runScore_eq_conclude admits built⟩

/-- A document with one model, which has a child that no record enters. -/
def closedDocument : String :=
  "<PMML><TreeModel><Node><True/><Node score='y'><False/></Node></Node></TreeModel></PMML>"

def closed : Model where
  root := {
    predicate := .always
    children := [{ predicate := .never, score := some "y" }] }

def closedRegistry : Registry where
  models := Table.empty.insert "model-0" closed

/-- A host with this document and nothing else. -/
def closet : Host Id where
  home := none
  kind? path := if path = "closed.pmml" then some .file else none
  read path := if path = "closed.pmml" then .ok closedDocument else .error .notFound
  names _ := .error .notFound
  makeDirectory _ := .error .exists
  write _ _ := .error .exists

def imposing : Settings where
  strategies := some ⟨some .nullPrediction, some .returnLastPrediction⟩

def asking : ScoreRequest where
  document := some "closed.pmml"
  overrides := { missingValue := some .lastPrediction }

def askingArguments : List Argument :=
  [.option "missing-value-strategy" " lastPREDICTION ", .word "closed.pmml"]

private theorem load_closed : Pmml.load closedDocument = .ok closedRegistry := by
  have chars : closedDocument.toList = _ := String.toList_ofList
  rw [Pmml.load, Xml.read?, Xml.tokens?, chars]
  rfl

private theorem admits_closed : Admits closet imposing ["closed.pmml"] none closed := by
  have loaded : Source.load ⟨"closed.pmml", .ok closedDocument⟩ = .ok closedRegistry := by
    unfold Source.load
    dsimp only
    rw [load_closed]
    rfl
  have gathered : [⟨"closed.pmml", .ok closedDocument⟩].mapM Source.load =
      .ok [closedRegistry] := by
    rw [Sequence.mapM_cons_eq_ok_iff]
    exact ⟨_, [], loaded, rfl, rfl⟩
  exact ⟨closedRegistry, ⟨_, _, rfl, gathered, rfl⟩, .only rfl, rfl⟩

private theorem asking_ofArguments? : ScoreRequest.ofArguments? askingArguments = some asking := by
  decide

theorem layers_override_closed :
    ScoreRequest.ofArguments? askingArguments = some asking ∧
      GivenAs "missing-value-strategy" askingArguments (some MissingValueStrategy.lastPrediction) ∧
      GivenAs "no-true-child-strategy" askingArguments (none : Option NoTrueChildStrategy) ∧
      Admits closet imposing ["closed.pmml"] none closed ∧
      recordOf closet asking = .ok Table.empty ∧
      ∃ strategies : Strategies,
        Settles .none [some .nullPrediction, some .lastPrediction] strategies.missingValue ∧
        Settles .returnNullPrediction [some .returnLastPrediction, none] strategies.noTrueChild ∧
        (runScore closet {} asking imposing).run =
          conclude {} false [] (closed.scoreWith strategies Table.empty) := by
  obtain ⟨-, -, -, given, scores⟩ := layers_override
  obtain ⟨missingValue, noTrueChild⟩ := given askingArguments asking asking_ofArguments?
  exact ⟨asking_ofArguments?, missingValue, noTrueChild, admits_closed, rfl,
    scores closet {} imposing asking closed Table.empty admits_closed rfl⟩

end Command
end DecisionTree
