import DecisionTree.Command.Run

namespace DecisionTree

open Files (FileError Host Kind)

/-- The number of an error of the system, which some operations give with a minus sign. -/
def systemNumber (code : UInt32) : UInt32 :=
  if code.toNat < Nat.pow 2 31 then code else 0 - code

def refusal : IO.Error → FileError
  | .noFileOrDirectory .. => .notFound
  | .alreadyExists .. => .exists
  | .inappropriateType _ code text =>
    if systemNumber code = 20 then .notDirectory
    else if systemNumber code = 21 then .isDirectory
    else .other text
  | .invalidArgument _ code text =>
    if systemNumber code = 36 then .nameTooLong else .other text
  | error => .other (toString error)

/-- The result of an action on the disk, or why it was refused. -/
def attempt {α : Type} (action : IO α) : IO (Except FileError α) := do
  match ← action.toBaseIO with
  | .ok result => return .ok result
  | .error error => return .error (refusal error)

def diskKind? (path : String) : IO (Option Kind) := do
  match ← (IO.FS.realPath path).toBaseIO with
  | .error _ => return none
  | .ok actual =>
    if !(← actual.pathExists) then return none
    else if ← actual.isDir then return some .directory
    else return some .file

def diskNames (path : String) : IO (List String) := do
  let entries ← (← IO.FS.realPath path).readDir
  return entries.toList.map (·.fileName)

def diskRead (path : String) : IO (Except FileError String) := do
  match ← diskKind? path with
  | some .directory => return .error .isDirectory
  | _ => attempt (IO.FS.readFile path)

/-- Puts content into a file of the disk by way of its draft. -/
def diskWrite (path content : String) : IO (Except FileError Unit) := do
  match ← diskKind? path, Files.Draft.ofPath path with
  | some .directory, _ => return .error .isDirectory
  | _, .error error => return .error error
  | _, .ok draft =>
    attempt do
      IO.FS.writeFile draft.temporaryPath content
      IO.FS.rename draft.temporaryPath draft.path

def disk : IO (Host IO) := do
  let home ← IO.getEnv "HOME"
  return {
    home
    kind? := diskKind?
    read := diskRead
    names := fun path => attempt (diskNames path)
    makeDirectory := fun path => attempt (IO.FS.createDir path)
    write := diskWrite }

def runProgram (arguments : List String) : IO UInt32 := do
  match Command.Request.read? arguments with
  | none =>
    IO.eprint Command.Help.program
    return 2
  | some request =>
    let colours ← (← IO.getStdout).isTty
    let outcome ← Command.answer (← disk) { colours } request
    IO.print outcome.output
    for line in outcome.errors do
      IO.eprintln line
    return UInt32.ofNat outcome.exit.code

end DecisionTree

def main (arguments : List String) : IO UInt32 :=
  DecisionTree.runProgram arguments
