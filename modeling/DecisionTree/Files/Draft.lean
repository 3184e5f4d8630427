import DecisionTree.Files.Host
import DecisionTree.Files.Path

/-!
Drafts. Content is written under another name in the same directory, which then takes the place of
the file, so that no file is ever seen half written. The name of a draft is longer than that of its
file, and a path that ends with dots has no name to put in its place.
-/

namespace DecisionTree.Files

structure Draft where
  directory : String
  name : String
  deriving DecidableEq, Repr

namespace Draft

/-- The name under which the content is written first. -/
def temporaryName (draft : Draft) : String :=
  "." ++ draft.name ++ ".update"

/-- The draft of the file at a path, or why there is none. -/
def ofPath (path : String) : Except FileError Draft :=
  match lastName? path with
  | none => .error .isDirectory
  | some name =>
    let draft : Draft := { directory := (parent? path).getD "", name }
    if longestName < draft.temporaryName.utf8ByteSize then .error .nameTooLong else .ok draft

def temporaryPath (draft : Draft) : String :=
  join draft.directory draft.temporaryName

def path (draft : Draft) : String :=
  join draft.directory draft.name

end Draft
end DecisionTree.Files
