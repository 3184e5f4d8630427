import DecisionTree.Text.Split

namespace DecisionTree.Files

/-- The bytes that a name in a directory may have. -/
def longestName : Nat := 255

/-- The bytes that a path may have. -/
def longestPath : Nat := 4095

inductive Component where
  | root
  /-- the single dot with which a path begins -/
  | here
  | up
  | name (text : String)
  deriving DecidableEq, Repr

/-- Whether a piece between slashes is no step. -/
def isVoid (piece : List Char) : Bool :=
  piece.isEmpty || piece == ['.']

def Component.ofPiece (piece : List Char) : Component :=
  if piece = ['.', '.'] then .up else .name (String.ofList piece)

def components (path : String) : List Component :=
  match Text.pieces '/' path.toList with
  | [] => []
  | first :: rest =>
    let steps := (rest.filter (!isVoid ·)).map Component.ofPiece
    if first.isEmpty then (if rest.isEmpty then [] else .root :: steps)
    else if first = ['.'] then .here :: steps
    else .ofPiece first :: steps

/-- The rank of a step in the order of paths: names come last and are ordered among themselves. -/
def Component.rank : Component → Nat
  | .root => 0
  | .here => 1
  | .up => 2
  | .name _ => 3

def Component.precedes : Component → Component → Bool
  | .name a, .name b => a < b
  | a, b => a.rank < b.rank

/-- The order of paths step by step; a path comes after those it continues. -/
def precedes : List Component → List Component → Bool
  | [], [] => false
  | [], _ :: _ => true
  | _ :: _, [] => false
  | a :: as, b :: bs => a.precedes b || (a == b && precedes as bs)

/-- A path behind another one; an absolute path stays alone. -/
def join (base path : String) : String :=
  if path.startsWith "/" || base.isEmpty then path
  else if base.endsWith "/" then base ++ path
  else base ++ "/" ++ path

/-- The path without its last step. The root and the empty path have none. -/
def parent? (path : String) : Option String :=
  match Text.pieces '/' path.toList with
  | [] => none
  | first :: rest =>
    match rest.reverse.dropWhile isVoid with
    | [] => if first.isEmpty then none else some ""
    | _ :: earlier =>
      match (earlier.dropWhile isVoid).reverse with
      | [] => some (if first.isEmpty then "/" else String.ofList first)
      | kept => some (Text.joinWith "/" ((first :: kept).map String.ofList))

/-- The name at the end of a path; none if the path ends with dots or is the root. -/
def lastName? (path : String) : Option String :=
  match (components path).getLast? with
  | some (.name text) => some text
  | _ => none

def sorted (paths : List String) : List String :=
  let ordered := paths.mergeSort fun a b => !precedes (components b) (components a)
  ordered.foldr (fun path later =>
    match later with
    | [] => [path]
    | next :: rest => if components path = components next then path :: rest else path :: later) []

end DecisionTree.Files
