import DecisionTree.Command.Run
import DecisionTree.Proofs.Registry.MergeAll
import DecisionTree.Proofs.Table
import DecisionTree.Proofs.Validation.Findings

/-!
What the outcome of a command tells. Scoring goes through stages, each of which can fail: documents
are loaded and merged, a model is chosen in them and validated, then the record is built and scored.
Success stands for all of them; the first ones failing and the last ones failing have exit codes of
their own, and neither leaves anything on the standard output. Listing looks at every model, whatever
it finds about the ones before. The host is taken at rest, as what there is under each of its paths.
-/

namespace DecisionTree.Command

open Files (Host)
open Sequence (bind_eq_ok_iff)

/-- All documents of a command load, and they merge to a registry. -/
def Loads (host : Host Id) (settings : Settings) (documents : List String)
    (registry : Registry) : Prop :=
  ∃ sources loaded, (gather host settings documents).run = .ok sources ∧
    sources.mapM Source.load = .ok loaded ∧ Registry.mergeAll {} loaded = .ok registry

/-- The model of a name, or the only one if there is no name. -/
inductive Chosen (registry : Registry) : Option String → Model → Prop where
  | named {name : String} {model : Model} (held : registry.models.get? name = some model) :
    Chosen registry (some name) model
  | only {name : String} {model : Model} (alone : registry.models.entries = [(name, model)]) :
    Chosen registry none model

/-- Validation finds nothing about the model or warnings only. -/
def Passes (model : Model) : Prop :=
  Finding.onlyWarnings (model.findings.map Finding.message) = true

/-- The model to be scored: it is found in the documents and passes validation. -/
def Admits (host : Host Id) (settings : Settings) (documents : List String)
    (name : Option String) (model : Model) : Prop :=
  ∃ registry, Loads host settings documents registry ∧ Chosen registry name model ∧ Passes model

def recordOf (host : Host Id) (request : ScoreRequest) : Except RecordFailure Record :=
  buildRecord (request.recordFile.map fun path => ⟨path, (host.read path).run⟩) request.assignments

/-- The record is built, and the model gives a prediction for it under its strategies with the
overrides of the request and those of the settings on top. -/
def Answers (host : Host Id) (settings : Settings) (request : ScoreRequest) (model : Model)
    (prediction : Prediction) : Prop :=
  ∃ record, recordOf host request = .ok record ∧
    model.scoreWith (((settings.strategies.getD {}).under request.overrides).apply model.strategies)
      record = .ok prediction

/-- What the outcome of scoring tells about its stages. -/
structure ClassifiesScore (host : Host Id) (terminal : Report.Terminal) (settings : Settings)
    (request : ScoreRequest) (outcome : Outcome) : Prop where
  success : outcome.exit.code = 0 ∧ outcome.output ≠ "" ↔
    ∃ model prediction, Admits host settings request.document.toList request.model model ∧
      Answers host settings request model prediction
  /-- the prediction is written as one JSON object or in lines, and nothing else is -/
  result : ∀ model prediction, Admits host settings request.document.toList request.model model →
    Answers host settings request model prediction →
    (request.asJson = true ∨ settings.output = .json →
      outcome.output = (Report.json prediction).text ++ "\n") ∧
    (request.asJson = false ∧ settings.output ≠ .json →
      outcome.output = Report.text terminal prediction ++ "\n")
  /-- the record has no part in it -/
  refused : outcome.exit.code = 2 ∧ outcome.output = "" ↔
    ¬∃ model, Admits host settings request.document.toList request.model model
  failed : outcome.exit.code = 1 ∧ outcome.output = "" ↔
    ∃ model, Admits host settings request.document.toList request.model model ∧
      ¬∃ prediction, Answers host settings request model prediction

/-- What the outcome of listing tells about the models. -/
structure ClassifiesList (registry : Registry) (outcome : Outcome) : Prop where
  success : outcome.exit.code = 0 ↔
    ∀ name model, registry.models.get? name = some model → Passes model
  /-- whatever there is to report about a model is reported in one piece -/
  reports : ∀ name model, registry.models.get? name = some model → model.findings ≠ [] →
    ∃ level : String, (Passes model → level = "warnings") ∧ (¬Passes model → level = "problems") ∧
      (s!"Model '{name}' has {level}:" ::
        model.findings.map fun finding => "  - " ++ finding.message) <:+: outcome.errors

variable {host : Host Id} {settings : Settings} {terminal : Report.Terminal}
  {request : ScoreRequest} {registry : Registry} {sources : List Source} {model other : Model}
  {prediction : Prediction} {name : Option String} {documents : List String}

theorem passes_iff : Passes model ↔ model.isUsable = true := by
  rw [Passes, Model.onlyWarnings_messages]

theorem loads_iff (gathered : (gather host settings documents).run = .ok sources) :
    Loads host settings documents registry ↔ loadAll sources = .ok registry := by
  rw [loadAll, loadInto_eq_ok_iff]
  constructor
  · rintro ⟨others, loaded, same, loads, merges⟩
    cases gathered.symm.trans same
    exact ⟨loaded, loads, merges⟩
  · rintro ⟨loaded, loads, merges⟩
    exact ⟨sources, loaded, gathered, loads, merges⟩

theorem single?_eq_some_iff :
    registry.single? = some model ↔ ∃ name, registry.models.entries = [(name, model)] := by
  rw [Registry.single?]
  split
  next known only form =>
    rw [form, Option.some.injEq]
    constructor
    · rintro rfl
      exact ⟨known, rfl⟩
    · rintro ⟨name, same⟩
      cases same
      rfl
  next several =>
    constructor
    · intro none
      cases none
    · rintro ⟨name, form⟩
      exact absurd form (several name model)

theorem select?_eq_some_iff : registry.select? name = some model ↔ Chosen registry name model := by
  cases name with
  | some name =>
    constructor
    · exact .named
    · intro chosen
      cases chosen with
      | named held => exact held
  | none =>
    rw [Registry.select?, single?_eq_some_iff]
    constructor
    · rintro ⟨name, alone⟩
      exact .only alone
    · intro chosen
      cases chosen with
      | only alone => exact ⟨_, alone⟩

theorem choose_eq_ok_iff : choose registry name = .ok model ↔ Chosen registry name model := by
  rw [← select?_eq_some_iff]
  unfold choose
  cases chosen : registry.select? name with
  | some chosen => simp
  | none => cases name <;> simp

/-- The one model to be scored is the one that is loaded and chosen, if it is usable. -/
theorem admits_iff (gathered : (gather host settings documents).run = .ok sources) :
    Admits host settings documents name model ↔
      (loadAll sources >>= (choose · name)) = .ok model ∧ model.isUsable = true := by
  simp only [Admits, loads_iff gathered, ← choose_eq_ok_iff, passes_iff, bind_eq_ok_iff]
  tauto

private theorem not_admits {failure : LoadFailure}
    (refused : (gather host settings documents).run = .error failure) :
    ¬Admits host settings documents name model := by
  rintro ⟨_, ⟨_, _, gathered, -⟩, -⟩
  cases refused.symm.trans gathered

/-- What a command leaves behind once its documents are gathered. -/
theorem withSources_run {next : List Source → Id Outcome} :
    (withSources host settings documents next).run =
      match (gather host settings documents).run with
      | .error failure => ⟨.loading, "", ["Load error: " ++ failure.message]⟩
      | .ok sources => (next sources).run := by
  change Id.run (match (gather host settings documents).run with
    | .error failure => pure ⟨.loading, "", ["Load error: " ++ failure.message]⟩
    | .ok sources => next sources) = _
  split <;> rfl

def inputOf (host : Host Id) (settings : Settings) (request : ScoreRequest) : ScoreInput where
  model := request.model
  recordFile := request.recordFile.map fun path => ⟨path, (host.read path).run⟩
  assignments := request.assignments
  overrides := (settings.strategies.getD {}).under request.overrides
  asJson := request.asJson || settings.output = .json

theorem runScore_run : (runScore host terminal request settings).run =
    match (gather host settings request.document.toList).run with
    | .error failure => ⟨.loading, "", ["Load error: " ++ failure.message]⟩
    | .ok sources => score terminal (inputOf host settings request) sources := by
  rw [runScore, withSources_run]
  split
  next => rfl
  next sources _ =>
    unfold inputOf
    cases request.recordFile <;> rfl

/-- How scoring ends, stage by stage. -/
inductive Ends (host : Host Id) (terminal : Report.Terminal) (settings : Settings)
    (request : ScoreRequest) : Outcome → Prop where
  | refused {errors : List String}
    (nothing : ∀ model, ¬Admits host settings request.document.toList request.model model) :
    Ends host terminal settings request ⟨.loading, "", errors⟩
  | failed {model : Model} {errors : List String}
    (admits : Admits host settings request.document.toList request.model model)
    (silent : ∀ prediction, ¬Answers host settings request model prediction) :
    Ends host terminal settings request ⟨.scoring, "", errors⟩
  | scored {model : Model} {prediction : Prediction} {errors : List String}
    (admits : Admits host settings request.document.toList request.model model)
    (answers : Answers host settings request model prediction) :
    Ends host terminal settings request
      ⟨.success, rendered terminal (request.asJson || settings.output = .json) prediction, errors⟩

theorem ends_scoreModel
    (admits : Admits host settings request.document.toList request.model model)
    (usable : model.isUsable = true) :
    Ends host terminal settings request
      (scoreModel terminal (inputOf host settings request) model) := by
  unfold scoreModel
  simp only [usable, Bool.not_true, Bool.false_eq_true, if_false]
  split
  next failure unbuilt =>
    refine .failed admits fun prediction answers => ?_
    obtain ⟨record, built, -⟩ := answers
    cases unbuilt.symm.trans built
  next record built =>
    split
    next error unscored =>
      refine .failed admits fun prediction answers => ?_
      obtain ⟨other, built', scored⟩ := answers
      cases built.symm.trans built'
      cases unscored.symm.trans scored
    next prediction scored => exact .scored admits ⟨record, built, scored⟩

theorem ends_runScore (host : Host Id) (terminal : Report.Terminal) (settings : Settings)
    (request : ScoreRequest) :
    Ends host terminal settings request (runScore host terminal request settings).run := by
  rw [runScore_run]
  split
  next failure refused => exact .refused fun model => not_admits refused
  next sources gathered =>
    unfold score
    split
    next failure refused =>
      refine .refused fun model admits => ?_
      obtain ⟨chosen, -⟩ := (admits_iff gathered).mp admits
      cases refused.symm.trans chosen
    next model chosen =>
      by_cases usable : model.isUsable = true
      · exact ends_scoreModel ((admits_iff gathered).mpr ⟨chosen, usable⟩) usable
      · unfold scoreModel
        simp only [usable]
        refine .refused fun other admits => ?_
        obtain ⟨same, usable'⟩ := (admits_iff gathered).mp admits
        cases chosen.symm.trans same
        exact usable usable'

theorem Admits.unique (first : Admits host settings documents name model)
    (second : Admits host settings documents name other) : model = other := by
  obtain ⟨_, ⟨sources, _, gathered, -⟩, -⟩ := id first
  have loads := ((admits_iff gathered).mp first).1
  exact Except.ok.inj (loads.symm.trans ((admits_iff gathered).mp second).1)

theorem Answers.unique {another : Prediction} (first : Answers host settings request model prediction)
    (second : Answers host settings request model another) : prediction = another := by
  obtain ⟨record, built, scored⟩ := first
  obtain ⟨other, built', scored'⟩ := second
  cases built.symm.trans built'
  exact Except.ok.inj (scored.symm.trans scored')

private theorem rendered_ne_empty (asJson : Bool) : rendered terminal asJson prediction ≠ "" := by
  intro empty
  have length := congrArg String.length empty
  rw [rendered, line, String.length_append] at length
  cases length

namespace Ends

variable {outcome : Outcome} (ends : Ends host terminal settings request outcome)

include ends

theorem code_zero_iff : outcome.exit.code = 0 ∧ outcome.output ≠ "" ↔
    ∃ model prediction, Admits host settings request.document.toList request.model model ∧
      Answers host settings request model prediction := by
  constructor
  · rintro ⟨code, -⟩
    cases ends with
    | refused | failed => cases code
    | scored admits answers => exact ⟨_, _, admits, answers⟩
  · rintro ⟨model, prediction, admits, answers⟩
    cases ends with
    | refused nothing => exact absurd admits (nothing model)
    | failed admitted silent =>
      rw [admits.unique admitted] at answers
      exact absurd answers (silent prediction)
    | scored => exact ⟨rfl, rendered_ne_empty _⟩

private theorem output_eq
    (admits : Admits host settings request.document.toList request.model model)
    (answers : Answers host settings request model prediction) :
    (request.asJson = true ∨ settings.output = .json →
      outcome.output = (Report.json prediction).text ++ "\n") ∧
    (request.asJson = false ∧ settings.output ≠ .json →
      outcome.output = Report.text terminal prediction ++ "\n") := by
  cases ends with
  | refused nothing => exact absurd admits (nothing model)
  | failed admitted silent =>
    rw [admits.unique admitted] at answers
    exact absurd answers (silent prediction)
  | scored admitted answered =>
    rw [admits.unique admitted] at answers
    rw [answers.unique answered]
    constructor
    · rintro (asked | configured)
      · simp [rendered, line, asked]
      · simp [rendered, line, configured]
    · rintro ⟨unasked, unset⟩
      simp [rendered, line, unasked, unset]

theorem code_two_iff : outcome.exit.code = 2 ∧ outcome.output = "" ↔
    ¬∃ model, Admits host settings request.document.toList request.model model := by
  constructor
  · rintro ⟨code, -⟩
    cases ends with
    | refused nothing => exact not_exists.mpr nothing
    | failed | scored => cases code
  · intro nothing
    cases ends with
    | refused => exact ⟨rfl, rfl⟩
    | failed admits | scored admits => exact absurd ⟨_, admits⟩ nothing

theorem code_one_iff : outcome.exit.code = 1 ∧ outcome.output = "" ↔
    ∃ model, Admits host settings request.document.toList request.model model ∧
      ¬∃ prediction, Answers host settings request model prediction := by
  constructor
  · rintro ⟨code, -⟩
    cases ends with
    | failed admits silent => exact ⟨_, admits, not_exists.mpr silent⟩
    | refused | scored => cases code
  · rintro ⟨model, admits, silent⟩
    cases ends with
    | refused nothing => exact absurd admits (nothing model)
    | failed => exact ⟨rfl, rfl⟩
    | scored admitted answers =>
      rw [admits.unique admitted] at silent
      exact absurd ⟨_, answers⟩ silent

end Ends

private theorem runList_run (gathered : (gather host settings documents).run = .ok sources) :
    (runList host terminal documents settings).run = list terminal sources := by
  rw [runList, withSources_run, gathered]
  rfl

theorem allUsable_iff : allUsable registry = true ↔
    ∀ name model, registry.models.get? name = some model → Passes model := by
  rw [allUsable, List.all_eq_true]
  simp only [Prod.forall, ← Table.get?_eq_some_iff, passes_iff]

/-- The findings about a model follow a line that names it. -/
theorem findingLines_eq {name : String} (found : model.findings ≠ []) :
    ∃ level : String, (Passes model → level = "warnings") ∧ (¬Passes model → level = "problems") ∧
      findingLines name model = s!"Model '{name}' has {level}:" ::
        model.findings.map fun finding => "  - " ++ finding.message := by
  refine ⟨if model.isUsable then "warnings" else "problems", ?_, ?_, ?_⟩
  · intro passes
    rw [if_pos (passes_iff.mp passes)]
  · intro fails
    rw [if_neg (mt passes_iff.mpr fails)]
  · rw [findingLines, if_neg (by simpa using found)]

theorem classifies_listModels (terminal : Report.Terminal) (registry : Registry) :
    ClassifiesList registry (listModels terminal registry) := by
  constructor
  · rw [← allUsable_iff, listModels]
    by_cases usable : allUsable registry = true
    · simp [usable, Exit.code]
    · simp [usable, Exit.code]
  · intro name model held found
    obtain ⟨level, warns, breaks, lines⟩ := @findingLines_eq model name found
    refine ⟨level, warns, breaks, ?_⟩
    rw [← lines]
    obtain ⟨before, after, form⟩ := List.append_of_mem (Table.get?_eq_some_iff.mp held)
    rw [listModels, form, List.flatMap_append, List.flatMap_cons]
    exact ⟨_, _, List.append_assoc _ _ _⟩

/-- The exit code of scoring tells which of its stages is the first to fail, and only success leaves
something on the standard output. Listing fails if any model does, and reports about all of them. -/
theorem exit_codes (host : Host Id) (terminal : Report.Terminal) (settings : Settings) :
    (∀ request, ClassifiesScore host terminal settings request
      (runScore host terminal request settings).run) ∧
    ∀ documents registry, Loads host settings documents registry →
      ClassifiesList registry (runList host terminal documents settings).run := by
  constructor
  · intro request
    have ends := ends_runScore host terminal settings request
    exact ⟨ends.code_zero_iff, fun _ _ => ends.output_eq, ends.code_two_iff, ends.code_one_iff⟩
  · intro documents registry loads
    obtain ⟨sources, _, gathered, -⟩ := id loads
    rw [runList_run gathered, list, (loads_iff gathered).mp loads]
    exact classifies_listModels terminal registry

/-- A document with one model, which says yes to every record. -/
def agreeingDocument : String :=
  "<PMML><TreeModel><Node score=\"yes\"><True/></Node></TreeModel></PMML>"

def agreeing : Model where
  root := { predicate := .always, score := some "yes" }

/-- A host with this document and nothing else. -/
def shelf : Host Id where
  home := none
  kind? path := if path = "yes.pmml" then some .file else none
  read path := if path = "yes.pmml" then .ok agreeingDocument else .error .notFound
  names _ := .error .notFound
  makeDirectory _ := .error .exists
  write _ _ := .error .exists

def agreed : Registry where
  models := Table.empty.insert "model-0" agreeing

private theorem load_agreeing : Pmml.load agreeingDocument = .ok agreed := by
  have chars : agreeingDocument.toList = _ := String.toList_ofList
  rw [Pmml.load, Xml.read?, Xml.tokens?, chars]
  rfl

private theorem source_load_agreeing (path : String) :
    Source.load ⟨path, .ok agreeingDocument⟩ = .ok agreed := by
  unfold Source.load
  dsimp only
  rw [load_agreeing]
  rfl

private theorem loads_shelf : Loads shelf {} ["yes.pmml"] agreed := by
  refine ⟨[⟨"yes.pmml", .ok agreeingDocument⟩], [agreed], rfl, ?_, rfl⟩
  rw [Sequence.mapM_cons_eq_ok_iff]
  exact ⟨agreed, [], source_load_agreeing "yes.pmml", rfl, rfl⟩

theorem exit_codes_shelf :
    Loads shelf {} ["yes.pmml"] agreed ∧
      (runList shelf {} ["yes.pmml"] {}).run.exit.code = 0 ∧
      (runScore shelf {} { document := some "yes.pmml" } {}).run.exit.code = 0 ∧
      (runScore shelf {} { document := some "yes.pmml" } {}).run.output =
        "value: yes\nconfidence: 0.0000\npath: yes\n" ∧
      (runScore shelf {} { document := some "yes.pmml", asJson := true } {}).run.output =
        "\x7b\"value\":\"yes\",\"confidence\":0.0,\"path\":[" ++
          "\x7b\"id\":null,\"score\":\"yes\",\"record_count\":null\x7d]\x7d\n" ∧
      (runScore shelf {} { document := some "no.pmml" } {}).run.exit.code = 2 ∧
      (runScore shelf {} { document := some "yes.pmml", assignments := ["yes"] } {}).run.exit.code =
        1 := by
  obtain ⟨score, list⟩ := exit_codes shelf {} {}
  have listed := list ["yes.pmml"] agreed loads_shelf
  have scored := score { document := some "yes.pmml" }
  have scoredAsJson := score { document := some "yes.pmml", asJson := true }
  have refused := score { document := some "no.pmml" }
  have failed := score { document := some "yes.pmml", assignments := ["yes"] }
  have passes : Passes agreeing := rfl
  have admits : Admits shelf {} ["yes.pmml"] none agreeing :=
    ⟨agreed, loads_shelf, .only rfl, passes⟩
  have answers (asJson : Bool) : Answers shelf {} { document := some "yes.pmml", asJson } agreeing
      { value := some "yes", confidence := 0, path := [agreeing.root] } :=
    ⟨Table.empty, rfl, rfl⟩
  refine ⟨loads_shelf, listed.success.mpr ?_, ?_, ?_, ?_, ?_, ?_⟩
  · intro name model held
    cases List.mem_singleton.mp (Table.get?_eq_some_iff.mp held)
    exact passes
  · exact (scored.success.mpr ⟨agreeing, _, admits, answers false⟩).1
  · rw [(scored.result agreeing _ admits (answers false)).2 ⟨rfl, nofun⟩, ← String.toList_inj,
      String.toList_append]
    decide +kernel
  · rw [(scoredAsJson.result agreeing _ admits (answers true)).1 (.inl rfl), ← String.toList_inj]
    simp only [String.toList_append]
    decide +kernel
  · refine (refused.refused.mpr ?_).1
    rintro ⟨model, registry, ⟨sources, loaded, gathered, loads, -⟩, -⟩
    cases gathered
    cases loads
  · refine (failed.failed.mpr ⟨agreeing, admits, ?_⟩).1
    rintro ⟨prediction, record, built, -⟩
    cases built

end DecisionTree.Command
