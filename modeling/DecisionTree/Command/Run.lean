import DecisionTree.Command.Invocation
import DecisionTree.Command.List
import DecisionTree.Command.Score
import DecisionTree.Files.Directory
import DecisionTree.Files.Draft
import DecisionTree.Glob.Search
import DecisionTree.Settings.File

namespace DecisionTree.Command

open Files (Host)

variable {m : Type → Type} [Monad m]

/-- A pattern with the home directory in place of a tilde at its beginning. -/
def expandHome (home : Option String) (pattern : String) : String :=
  match pattern.toList, home with
  | '~' :: '/' :: rest, some home => Files.join home (String.ofList rest)
  | _, _ => pattern

/-- The routes of patterns, or the first pattern that has none. -/
def routesOf (home : Option String) : List String → Except LoadFailure (List Glob.Route)
  | [] => .ok []
  | pattern :: rest => do
    let route ← (Glob.Route.ofPattern (expandHome home pattern)).mapError (.badPattern pattern)
    let routes ← routesOf home rest
    return route :: routes

/-- The paths that match patterns, in order and each once. -/
def expand (host : Host m) (patterns : List String) : m (Except LoadFailure (List String)) := do
  match routesOf host.home patterns with
  | .error failure => return .error failure
  | .ok routes =>
    let found ← routes.mapM (Glob.search host)
    return .ok (Files.sorted found.flatten)

/-- The documents named, or those that the patterns of the settings find if none is named. -/
def gather (host : Host m) (settings : Settings) (documents : List String) :
    m (Except LoadFailure (List Source)) := do
  let paths ← if documents.isEmpty then expand host settings.patterns else pure (.ok documents)
  match paths with
  | .error failure => return .error failure
  | .ok [] => return .error .nothingToLoad
  | .ok paths =>
    let sources ← paths.mapM fun path => do
      let content ← host.read path
      return { path, content : Source }
    return .ok sources

/-- Reads and checks the settings, and goes on with them. -/
def withSettings (host : Host m) (invocation : Invocation) (next : Settings → m Outcome) :
    m Outcome := do
  match invocation.settingsFile.or (host.home.map Settings.fileIn) with
  | none => return ⟨.settings, "", SettingsFailure.noHome.lines⟩
  | some path =>
    let content ← host.read? path
    match Settings.ofFile path content >>= Settings.checked invocation.verbose with
    | .error failure => return ⟨.settings, "", failure.lines⟩
    | .ok settings => next settings

def withSources (host : Host m) (settings : Settings) (documents : List String)
    (next : List Source → m Outcome) : m Outcome := do
  match ← gather host settings documents with
  | .error failure => return ⟨.loading, "", ["Load error: " ++ failure.message]⟩
  | .ok sources => next sources

def runScore (host : Host m) (terminal : Report.Terminal) (request : ScoreRequest)
    (settings : Settings) : m Outcome :=
  withSources host settings request.document.toList fun sources => do
    let recordFile ← match request.recordFile with
      | none => pure none
      | some path => do
        let content ← host.read path
        pure (some { path, content : RecordFile })
    let input : ScoreInput := {
      model := request.model
      recordFile
      assignments := request.assignments
      overrides := (settings.strategies.getD {}).under request.overrides
      asJson := request.asJson || settings.output = .json }
    return score terminal input sources

def runList (host : Host m) (terminal : Report.Terminal) (documents : List String)
    (settings : Settings) : m Outcome :=
  withSources host settings documents fun sources => return list terminal sources

def refuse (reason : String) : Outcome :=
  ⟨.settings, "", ["Config error: " ++ reason]⟩

/-- Writes the default settings where there are none, or in place of those that are there. -/
def runInit (host : Host m) (path : String) (replace : Bool) : m Outcome := do
  let present := (← host.kind? path).isSome
  if present && !replace then
    return refuse s!"Config already exists at {path}. Use --force to overwrite"
  let directory := (Files.parent? path).getD ""
  match ← host.ensureDirectories directory with
  | .error error =>
    return refuse s!"Failed to create config directory at {directory}: {error.message}"
  | .ok _ =>
    match Files.Draft.ofPath path with
    | .error error =>
      return refuse s!"Failed to open atomic write file at {path}: {error.message}"
    | .ok _ =>
      match ← host.write path Settings.defaultDocument with
      | .error error => return refuse s!"Failed to save config: {error.message}"
      | .ok _ => return ⟨.success, line s!"Wrote default config to {path}", []⟩

def run (host : Host m) (terminal : Report.Terminal) (invocation : Invocation) : m Outcome :=
  match invocation.action with
  | .score request => withSettings host invocation (runScore host terminal request)
  | .list documents => withSettings host invocation (runList host terminal documents)
  | .init replace =>
    match invocation.settingsFile.or (host.home.map Settings.fileIn) with
    | none => return ⟨.settings, "", SettingsFailure.noHome.lines⟩
    | some path => runInit host path replace

def answer (host : Host m) (terminal : Report.Terminal) : Request → m Outcome
  | .tell text => return ⟨.success, text, []⟩
  | .run invocation => run host terminal invocation

end DecisionTree.Command
