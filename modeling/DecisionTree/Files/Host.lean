namespace DecisionTree.Files

inductive FileError where
  | notFound
  | exists
  | notDirectory
  | isDirectory
  | nameTooLong
  | other (text : String)
  deriving DecidableEq, Repr

def FileError.message : FileError → String
  | .notFound => "No such file or directory (os error 2)"
  | .exists => "File exists (os error 17)"
  | .notDirectory => "Not a directory (os error 20)"
  | .isDirectory => "Is a directory (os error 21)"
  | .nameTooLong => "File name too long (os error 36)"
  | .other text => text

inductive Kind where
  | file
  | directory
  deriving DecidableEq, Repr

structure Host (m : Type → Type) where
  home : Option String
  kind? : String → m (Option Kind)
  read : String → m (Except FileError String)
  /-- the names in a directory -/
  names : String → m (Except FileError (List String))
  makeDirectory : String → m (Except FileError Unit)
  /-- puts content into a file, whatever it held before -/
  write : String → String → m (Except FileError Unit)

variable {m : Type → Type} [Monad m]

/-- The content of a file, or none if there is nothing under the path. -/
def Host.read? (host : Host m) (path : String) : m (Option (Except FileError String)) := do
  match ← host.kind? path with
  | none => return none
  | some _ =>
    let content ← host.read path
    return some content

end DecisionTree.Files
