import DecisionTree.Files.Draft
import DecisionTree.Table

namespace DecisionTree.Files

/-- Files under the names that lead to them from the root, joined by slashes, and the names that
lead to the working directory. -/
structure Memory where
  home : List String
  files : Table String := Table.empty
  /-- the directories that were made, by the names that lead to them -/
  made : List (List String) := []

namespace Memory

def key (steps : List String) : String :=
  Text.joinWith "/" steps

/-- How the keys of all files below a directory begin. -/
def below (steps : List String) : List Char :=
  if steps.isEmpty then [] else (key steps).toList ++ ['/']

def isDirectory (memory : Memory) (steps : List String) : Bool :=
  steps.isPrefixOf memory.home || memory.made.contains steps ||
    memory.files.names.any fun name => (below steps).isPrefixOf name.toList

def kindAt? (memory : Memory) (steps : List String) : Option Kind :=
  if memory.files.contains (key steps) then some .file
  else if memory.isDirectory steps then some .directory
  else none

/-- Follows the components of a path from a directory to the steps that lead to its end, of which
the last one need not exist. -/
def follow (memory : Memory) (steps : List String) :
    List Component → Except FileError (List String)
  | [] => .ok steps
  | .root :: rest => follow memory [] rest
  | .here :: rest => follow memory steps rest
  | .up :: rest => follow memory steps.dropLast rest
  | .name text :: rest =>
    let next := steps ++ [text]
    if longestName < text.utf8ByteSize then .error .nameTooLong
    else if rest.isEmpty then .ok next
    else match memory.kindAt? next with
      | some .directory => follow memory next rest
      | some .file => .error .notDirectory
      | none => .error .notFound

/-- The steps that lead to the end of a path, of which the last one need not exist. -/
def steps (memory : Memory) (path : String) : Except FileError (List String) :=
  if path.isEmpty then .error .notFound
  else if longestPath < path.utf8ByteSize then .error .nameTooLong
  else memory.follow memory.home (components path)

/-- What there is under a path, or why nothing is found. A slash at the end, with or without a
dot behind it, asks for a directory. -/
def find (memory : Memory) (path : String) : Except FileError (List String × Kind) := do
  let steps ← memory.steps path
  match memory.kindAt? steps with
  | none => throw .notFound
  | some .file =>
    if path.endsWith "/" || path.endsWith "/." then throw .notDirectory
    else return (steps, .file)
  | some .directory => return (steps, .directory)

def read (memory : Memory) (path : String) : Except FileError String := do
  match ← memory.find path with
  | (_, .directory) => throw .isDirectory
  | (steps, .file) =>
    match memory.files.get? (key steps) with
    | some content => return content
    | none => throw .notFound

/-- The name that comes next after steps on the way to a file. -/
def nextName? (steps : List String) (name : String) : Option String :=
  (Text.after? (below steps) name.toList).map fun rest =>
    String.ofList (rest.takeWhile (· != '/'))

def names (memory : Memory) (path : String) : Except FileError (List String) := do
  match ← memory.find path with
  | (_, .file) => throw .notDirectory
  | (steps, .directory) =>
    let keys := memory.files.names ++ memory.made.map key
    return (keys.filterMap (nextName? steps)).eraseDups

def makeDirectory (memory : Memory) (path : String) : Except FileError Memory := do
  let steps ← memory.steps path
  if (memory.kindAt? steps).isSome then throw .exists
  return { memory with made := steps :: memory.made }

/-- Puts content into a file by way of its draft. -/
def write (memory : Memory) (path content : String) : Except FileError Memory := do
  let draft ← Draft.ofPath path
  let steps ← memory.steps draft.path
  if memory.isDirectory steps then throw .isDirectory
  return { memory with files := memory.files.insert (key steps) content }

/-- Keeps the memory after a change, or tells why it was refused. -/
def update (change : Memory → Except FileError Memory) : StateM Memory (Except FileError Unit) := do
  match change (← get) with
  | .error error => return .error error
  | .ok memory =>
    set memory
    return .ok ()

def host (home : String) : Host (StateM Memory) where
  home := some home
  kind? path := return (((← get).find path).toOption).map (·.2)
  read path := return (← get).read path
  names path := return (← get).names path
  makeDirectory path := update fun memory => memory.makeDirectory path
  write path content := update fun memory => memory.write path content

end Memory
end DecisionTree.Files
