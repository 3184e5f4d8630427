import DecisionTree.Text.Split
import DecisionTree.Xml.Character

/-!
The tokens of an XML document: tags, runs of text, marked sections, comments and processing
instructions, each as it is written, with references still in place. A document type declaration
is no token, and neither is an XML declaration anywhere but at the very start.
-/

namespace DecisionTree.Xml

/-- A qualified name. An empty qualifier is none. -/
structure Name where
  qualifier : String
  localName : String
  deriving DecidableEq, Repr

structure RawAttribute where
  name : Name
  value : List Char

inductive Token where
  | opening (name : Name) (attributes : List RawAttribute)
  /-- a tag that opens and closes an element at once -/
  | empty (name : Name) (attributes : List RawAttribute)
  | closing (name : Name)
  | text (content : List Char)
  /-- text in a marked section, where nothing is a reference -/
  | marked (content : List Char)
  | comment
  | instruction

def skipSpace (cs : List Char) : List Char :=
  cs.dropWhile isSpace

/-- A qualified name from its parts between colons: at most two, of which the last is not empty
and each begins like a name. -/
def Name.ofParts? : List (List Char) → Option Name
  | [c :: cs] => if startsName c then some ⟨"", String.ofList (c :: cs)⟩ else none
  | [[], c :: cs] => if startsName c then some ⟨"", String.ofList (c :: cs)⟩ else none
  | [q :: qs, c :: cs] =>
    if startsName q && startsName c then
      some ⟨String.ofList (q :: qs), String.ofList (c :: cs)⟩
    else none
  | _ => none

def readName? (cs : List Char) : Option (Name × List Char) :=
  let inside (c : Char) := continuesName c || c == ':'
  (Name.ofParts? (Text.pieces ':' (cs.takeWhile inside))).map (·, cs.dropWhile inside)

/-- A name without regard to colons, as processing instructions have it, and what follows it. -/
def readTarget? : List Char → Option (List Char × List Char)
  | [] => none
  | c :: cs =>
    let inside (c : Char) := continuesName c || c == ':'
    if startsName c || c == ':' then some (c :: cs.takeWhile inside, cs.dropWhile inside) else none

/-- A value between quotes of one kind, and what follows it. -/
def readQuoted? : List Char → Option (List Char × List Char)
  | quote :: cs =>
    if quote == '"' || quote == '\'' then
      let inside (c : Char) := c != quote && c != '<'
      let value := cs.takeWhile inside
      match cs.dropWhile inside with
      | closing :: rest =>
        if closing == quote && value.all isAllowed then some (value, rest) else none
      | [] => none
    else none
  | [] => none

def readAttribute? (cs : List Char) : Option (RawAttribute × List Char) := do
  let (name, afterName) ← readName? cs
  let assigned ← Text.after? ['='] (skipSpace afterName)
  let (value, rest) ← readQuoted? (skipSpace assigned)
  return (⟨name, value⟩, rest)

/-- The attributes of a tag after its name, whether the tag is empty, and what follows it. Each
attribute has a space before it. The fuel bounds the number of attributes. -/
def readTag? : Nat → List Char → Option (List RawAttribute × Bool × List Char)
  | 0, _ => none
  | fuel + 1, cs =>
    match skipSpace cs with
    | '>' :: rest => some ([], false, rest)
    | '/' :: '>' :: rest => some ([], true, rest)
    | other =>
      if other.length < cs.length then do
        let (first, afterFirst) ← readAttribute? other
        let (attributes, isEmpty, rest) ← readTag? fuel afterFirst
        return (first :: attributes, isEmpty, rest)
      else none

/-- A comment after its opening: it holds no two hyphens in a row and does not end in one. -/
def readComment? (cs : List Char) : Option (List Char) := do
  let (content, rest) ← Text.cutAtMark? "-->".toList cs
  if content.all isAllowed && (Text.cutAtMark? "--".toList (content ++ ['-'])).isNone then
    return rest
  else none

def readInstruction? (cs : List Char) : Option (List Char) := do
  if (Text.after? "xml ".toList cs).isSome then none
  let (_, afterTarget) ← readTarget? cs
  let (content, rest) ← Text.cutAtMark? "?>".toList afterTarget
  if content.all isAllowed then return rest else none

def readSection? (cs : List Char) : Option (List Char × List Char) := do
  let (content, rest) ← Text.cutAtMark? "]]>".toList cs
  if content.all isAllowed then return (content, rest) else none

def readOpening? (cs : List Char) : Option (Token × List Char) := do
  let (name, afterName) ← readName? cs
  let (attributes, isEmpty, rest) ← readTag? (afterName.length + 1) afterName
  return (if isEmpty then .empty name attributes else .opening name attributes, rest)

def readClosing? (cs : List Char) : Option (Token × List Char) := do
  let (name, afterName) ← readName? cs
  let rest ← Text.after? ['>'] (skipSpace afterName)
  return (.closing name, rest)

/-- Text up to the next tag. The end mark of a marked section may not stand in it. -/
def readText? (cs : List Char) : Option (Token × List Char) :=
  let content := cs.takeWhile (· != '<')
  if content.all isAllowed && (Text.cutAtMark? "]]>".toList content).isNone then
    some (.text content, cs.dropWhile (· != '<'))
  else none

def readToken? (cs : List Char) : Option (Token × List Char) :=
  match cs with
  | '<' :: '!' :: marked =>
    match Text.after? "--".toList marked, Text.after? "[CDATA[".toList marked with
    | some remark, _ => (readComment? remark).map (.comment, ·)
    | none, some content => (readSection? content).map fun (text, rest) => (.marked text, rest)
    | none, none => none
  | '<' :: '?' :: instruction => (readInstruction? instruction).map (.instruction, ·)
  | '<' :: '/' :: closing => readClosing? closing
  | '<' :: opening => readOpening? opening
  | text => readText? text

/-- All tokens of a text. A token has at least one character, so the length of the text is enough
fuel. -/
def readTokens? : Nat → List Char → Option (List Token)
  | _, [] => some []
  | 0, _ => none
  | fuel + 1, cs => do
    let (token, rest) ← readToken? cs
    let tokens ← readTokens? fuel rest
    return token :: tokens

/-- What follows the space behind an attribute of the declaration, which only its end can do
without. -/
def skipGap? (cs : List Char) : Option (List Char) :=
  match cs with
  | [] => some []
  | c :: _ => if isSpace c || "?>".toList.isPrefixOf cs then some (skipSpace cs) else none

/-- What follows an attribute of the declaration if it begins with the keyword. -/
def skipDeclared? (keyword : String) (cs : List Char) : Option (List Char) :=
  if keyword.toList.isPrefixOf cs then (readAttribute? cs).map (·.2) else none

/-- What follows the XML declaration after its opening: the version, then perhaps the encoding,
then perhaps whether the document stands alone. -/
def skipDeclaration? (cs : List Char) : Option (List Char) := do
  let version ← skipDeclared? "version" (skipSpace cs)
  let afterVersion ← skipGap? version
  let afterEncoding ←
    match skipDeclared? "encoding" afterVersion with
    | some encoding => skipGap? encoding
    | none => some afterVersion
  let afterStandalone := (skipDeclared? "standalone" afterEncoding).getD afterEncoding
  Text.after? "?>".toList (skipSpace afterStandalone)

/-- The tokens of a document behind its byte order mark and its declaration, if it has them. -/
def tokens? (document : String) : Option (List Token) := do
  let marked := document.toList
  let cs := (Text.after? ['\uFEFF'] marked).getD marked
  let content ←
    match Text.after? "<?xml ".toList cs with
    | some declaration => skipDeclaration? declaration
    | none => some cs
  readTokens? content.length content

end DecisionTree.Xml
