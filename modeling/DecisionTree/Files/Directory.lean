import DecisionTree.Files.Host
import DecisionTree.Files.Path

namespace DecisionTree.Files.Host

variable {m : Type → Type} [Monad m]

/-- Makes a directory where there may already be one. -/
def ensureDirectory (host : Host m) (path : String) : m (Except FileError Unit) := do
  match ← host.makeDirectory path with
  | .ok _ => return .ok ()
  | .error error =>
    match ← host.kind? path with
    | some .directory => return .ok ()
    | _ => return .error error

/-- Makes a directory and first those above it; the fuel bounds their number. -/
def ensureWithin (host : Host m) : Nat → String → m (Except FileError Unit)
  | 0, _ => return .error .notFound
  | fuel + 1, path => do
    if path.isEmpty then return .ok ()
    match ← ensureDirectory host path with
    | .error .notFound =>
      match parent? path with
      | none => return .error .notFound
      | some above =>
        match ← ensureWithin host fuel above with
        | .error error => return .error error
        | .ok _ => ensureDirectory host path
    | other => return other

def ensureDirectories (host : Host m) (path : String) : m (Except FileError Unit) :=
  ensureWithin host (path.length + 1) path

end DecisionTree.Files.Host
