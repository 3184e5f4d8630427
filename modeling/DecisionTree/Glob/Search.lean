import DecisionTree.Files.Host
import DecisionTree.Files.Path
import DecisionTree.Glob.Pattern

/-!
Finding the paths that match a pattern. A pattern is matched component by component from the
working directory or the root down. A component without wildcards is looked up and not searched
for, so that it may also be a dot or two; a search never finds those two unless its component
begins with a dot.
-/

namespace DecisionTree.Glob

open Files (Host Kind)

/-- A pattern cut into the patterns of its components. -/
structure Route where
  /-- where the search begins -/
  start : String
  components : List Pattern
  /-- whether only directories are found, which a slash at the end asks for -/
  onlyDirectories : Bool

/-- The pieces between slashes without the empty one that a slash at the end leaves. -/
def routePieces (cs : List Char) : List (List Char) :=
  let pieces := Text.pieces '/' cs
  if pieces.getLast? = some [] then pieces.dropLast else pieces

/-- The route of a pattern, or the first error in it or in one of its components. -/
def Route.ofPattern (pattern : String) : Except PatternError Route := do
  let _ ← read pattern
  let cs := pattern.toList
  let relative := if cs.head? = some '/' then cs.tail else cs
  let components ← (routePieces relative).mapM fun piece => read (String.ofList piece)
  return {
    start := if relative.length < cs.length then "/" else "."
    components := if relative.isEmpty then [[]] else components
    onlyDirectories := cs.getLast? = some '/' }

/-- The text that a pattern without wildcards stands for. -/
def literal? : Pattern → Option (List Char)
  | [] => some []
  | .literal c :: rest => (literal? rest).map (c :: ·)
  | _ => none

/-- Whether a component stands for any number of directories. -/
def isDepth (pattern : Pattern) : Bool :=
  pattern.contains .anyDepth

/-- A path below a place that the search has reached. The working directory is left out of it,
with however many dots it is written. -/
def below (base name : String) : String :=
  if Files.components base = [.here] then name else Files.join base name

variable {m : Type → Type} [Monad m]

/-- Levels of directories beyond which no search goes: a path has at most 4096 bytes. -/
def deepest : Nat := 4096

def kept (onlyDirectories : Bool) (path : String) (kind : Kind) : List String :=
  if onlyDirectories && kind = .file then [] else [path]

mutual

/-- The paths below a directory that match the components. -/
def searchBelow (host : Host m) (onlyDirectories : Bool) :
    Nat → List Pattern → String → m (List String)
  | 0, _, _ => return []
  | _ + 1, [], _ => return []
  | fuel + 1, pattern :: rest, base => do
    match literal? pattern with
    | some name => lookUp host onlyDirectories fuel rest (below base (String.ofList name))
    | none =>
      match ← host.names base with
      | .error _ => return []
      | .ok names =>
        let found ← names.mapM fun name =>
          searchAt host onlyDirectories fuel (pattern :: rest) (below base name)
        let dots := ["." , ".."].filter fun name =>
          pattern.head? = some (.literal '.') && isMatch pattern name.toList
        let beyond ← dots.mapM fun name =>
          lookUp host onlyDirectories fuel rest (Files.join base name)
        return found.flatten ++ beyond.flatten

/-- A path whose last component has been matched, or the paths below it that match what is left
of the components. -/
def lookUp (host : Host m) (onlyDirectories : Bool) :
    Nat → List Pattern → String → m (List String)
  | 0, _, _ => return []
  | fuel + 1, rest, path => do
    match ← host.kind? path with
    | none => return []
    | some kind =>
      if rest.isEmpty then return kept onlyDirectories path kind
      else searchBelow host onlyDirectories fuel rest path

/-- The paths that match the components, of which the first one is about the last name of a path
that was found in its directory. -/
def searchAt (host : Host m) (onlyDirectories : Bool) :
    Nat → List Pattern → String → m (List String)
  | 0, _, _ => return []
  | _ + 1, [], _ => return []
  | fuel + 1, pattern :: rest, path => do
    match ← host.kind? path with
    | none => return []
    | some kind =>
      if isDepth pattern then
        let next := rest.dropWhile isDepth
        let deeper ←
          if kind = .directory then
            searchBelow host onlyDirectories fuel (pattern :: next) path
          else pure []
        let here ←
          match next with
          | [] => pure (if kind = .directory then [path] else [])
          | _ :: _ => searchAt host onlyDirectories fuel next path
        return deeper ++ here
      else if (Files.lastName? path).any (isMatch pattern ·.toList) then
        if rest.isEmpty then return kept onlyDirectories path kind
        else searchBelow host onlyDirectories fuel rest path
      else return []

end

/-- The paths that match a route, in no particular order. -/
def search (host : Host m) (route : Route) : m (List String) :=
  searchBelow host route.onlyDirectories (3 * deepest) route.components route.start

end DecisionTree.Glob
