import DecisionTree.Yaml.Layout

namespace DecisionTree.Yaml

/-- What is left to be read, and what has been named so far. -/
structure Remaining where
  tokens : List Token
  /-- the nodes that anchors were put on, the latest first -/
  anchors : List (String × Yaml) := []
  /-- what the handles of tags stand for -/
  handles : List (String × String) := []

abbrev Reader := StateT Remaining Option

namespace Reader

/-- The next token, which stays. Where the text could not be read on there is none. -/
def peek : Reader Token := do
  match (← get).tokens with
  | token :: _ => return token
  | [] => failure

def drop : Reader Unit :=
  modify fun remaining => { remaining with tokens := remaining.tokens.tail }

def resolve (handle suffix : String) : Reader String := do
  match (← get).handles.lookup handle with
  | some expansion => return expansion ++ suffix
  | none =>
    if handle = "!!" then return coreTag ++ suffix
    else if isNamedHandle handle.toList then failure
    else return handle ++ suffix

/-- The anchor here, if there is one. From here on it is not known until its node is. -/
def anchor? : Reader (Option String) := do
  match ← peek with
  | .anchor name =>
    modify fun remaining =>
      { remaining with
        tokens := remaining.tokens.tail
        anchors := remaining.anchors.filter (·.1 != name) }
    return some name
  | _ => return none

def tag? : Reader (Option String) := do
  match ← peek with
  | .tag handle suffix =>
    drop
    let tag ← resolve handle suffix
    return some tag
  | _ => return none

/-- The anchor and the tag of a node, in either order. -/
def properties : Reader (Option String × Option String) := do
  match ← anchor? with
  | some name => return (some name, ← tag?)
  | none =>
    match ← tag? with
    | none => return (none, none)
    | some tag => return (← anchor?, some tag)

def bind (name : Option String) (node : Yaml) : Reader Yaml := do
  match name with
  | none => return node
  | some name =>
    let node := match node with
      | .scalar .quoted tag "" => .scalar .plain tag ""
      | other => other
    modify fun remaining => { remaining with anchors := (name, node) :: remaining.anchors }
    return node

def named (name : String) : Reader Yaml := do
  drop
  match (← get).anchors.lookup name with
  | some node => return node
  | none => failure

mutual

/-- A node. Only in a block are there blocks, and only the value of a key may be a sequence whose
dashes stand right below the key. The fuel bounds the nodes. -/
def node (inBlock belowKey : Bool) : Nat → Reader Yaml
  | 0 => failure
  | fuel + 1 => do
    if let .aliasTo name := ← peek then
      return ← named name
    let (name, tag) ← properties
    let content ←
      match ← peek with
      | .scalar style content => do
        drop
        pure (.scalar style tag content)
      | .openSequence => do
        drop
        pure (.sequence (← flowItems true fuel))
      | .openMapping => do
        drop
        pure (.mapping (← flowEntries true fuel))
      | .blockSequence => do
        if !inBlock then failure
        drop
        pure (.sequence (← blockItems true fuel))
      | .blockMapping => do
        if !inBlock then failure
        drop
        pure (.mapping (← blockEntries fuel))
      | .dash =>
        if belowKey then do
          pure (.sequence (← blockItems false fuel))
        else if name.isSome || tag.isSome then pure (.scalar .plain tag "")
        else failure
      | _ =>
        if name.isSome || tag.isSome then pure (.scalar .plain tag "") else failure
    bind name content

/-- The items of a sequence in a block, which ends with the block or, right below a key, with the
dashes. -/
def blockItems (isBlock : Bool) : Nat → Reader (List Yaml)
  | 0 => failure
  | fuel + 1 => do
    match ← peek with
    | .dash => do
      drop
      let next ← peek
      let isEmpty := next = .dash || next = .blockEnd ||
        (!isBlock && (next = .key || next = .value))
      let item ← if isEmpty then pure null else node true false fuel
      let items ← blockItems isBlock fuel
      return item :: items
    | .blockEnd => do
      if isBlock then drop
      return []
    | _ => if isBlock then failure else return []

def blockEntries : Nat → Reader (List (Yaml × Yaml))
  | 0 => failure
  | fuel + 1 => do
    match ← peek with
    | .blockEnd => do
      drop
      return []
    | .value => do
      let value ← blockValue fuel
      let entries ← blockEntries fuel
      return (null, value) :: entries
    | .key => do
      drop
      let key ← blockPart fuel
      let value ← blockValue fuel
      let entries ← blockEntries fuel
      return (key, value) :: entries
    | _ => failure

/-- The value behind a key in a block; null if there is none. -/
def blockValue : Nat → Reader Yaml
  | 0 => failure
  | fuel + 1 => do
    match ← peek with
    | .value => do
      drop
      blockPart fuel
    | _ => return null

/-- A key or a value in a block; null if nothing is written. -/
def blockPart : Nat → Reader Yaml
  | 0 => failure
  | fuel + 1 => do
    match ← peek with
    | .key => return null
    | .value => return null
    | .blockEnd => return null
    | _ => node true true fuel

/-- The items of a flow sequence. A key makes a mapping of one entry. -/
def flowItems (first : Bool) : Nat → Reader (List Yaml)
  | 0 => failure
  | fuel + 1 => do
    if let .closeSequence := ← peek then
      drop
      return []
    if !first then
      match ← peek with
      | .comma => drop
      | _ => failure
    match ← peek with
    | .closeSequence => do
      drop
      return []
    | .key => do
      drop
      let key ← flowPart fuel
      let value ← flowValue fuel
      let items ← flowItems false fuel
      return .mapping [(key, value)] :: items
    | _ => do
      let item ← node false false fuel
      let items ← flowItems false fuel
      return item :: items

def flowEntries (first : Bool) : Nat → Reader (List (Yaml × Yaml))
  | 0 => failure
  | fuel + 1 => do
    if let .closeMapping := ← peek then
      drop
      return []
    if !first then
      match ← peek with
      | .comma => drop
      | _ => failure
    match ← peek with
    | .closeMapping => do
      drop
      return []
    | .key => do
      drop
      let key ← flowPart fuel
      let value ← flowValue fuel
      let entries ← flowEntries false fuel
      return (key, value) :: entries
    | .value => do
      let value ← flowValue fuel
      let entries ← flowEntries false fuel
      return (null, value) :: entries
    | _ => do
      let key ← node false false fuel
      let entries ← flowEntries false fuel
      return (key, null) :: entries

/-- The value behind a key in a flow collection; null if there is none. -/
def flowValue : Nat → Reader Yaml
  | 0 => failure
  | fuel + 1 => do
    match ← peek with
    | .value => do
      drop
      flowPart fuel
    | _ => return null

/-- A key or a value in a flow collection; null if nothing is written. -/
def flowPart : Nat → Reader Yaml
  | 0 => failure
  | fuel + 1 => do
    match ← peek with
    | .value => return null
    | .comma => return null
    | .closeSequence => return null
    | .closeMapping => return null
    | _ => node false false fuel

end

/-- Whether a directive stands here or a document begins with its marker. -/
def opensExplicitly (token : Token) : Bool :=
  match token with
  | .version | .handle _ _ | .otherDirective | .documentStart => true
  | _ => false

/-- Whether a token comes after the content of a document. -/
def endsContent (token : Token) : Bool :=
  opensExplicitly token || token = .documentEnd || token = .streamEnd

/-- Reads directives. The version is given at most once, and each handle too. -/
def directives (versioned : Bool) : Nat → Reader Unit
  | 0 => failure
  | fuel + 1 => do
    match ← peek with
    | .version => do
      if versioned then failure
      drop
      directives true fuel
    | .handle handle expansion => do
      if ((← get).handles.lookup handle).isSome then failure
      modify fun remaining =>
        { remaining with
          tokens := remaining.tokens.tail
          handles := (handle, expansion) :: remaining.handles }
      directives versioned fuel
    | .otherDirective => do
      drop
      directives versioned fuel
    | _ => return ()

def dropEnds : Nat → Reader Unit
  | 0 => failure
  | fuel + 1 => do
    match ← peek with
    | .documentEnd => do
      drop
      dropEnds fuel
    | _ => return ()

/-- Reads up to the content of a document that begins with a marker. -/
def openExplicitly (fuel : Nat) : Reader Unit := do
  directives false fuel
  match ← peek with
  | .documentStart => drop
  | _ => failure

/-- The first document; none if there is no document. -/
def firstDocument (fuel : Nat) : Reader (Option Yaml) := do
  dropEnds fuel
  let token ← peek
  if token = .streamEnd then return none
  else if opensExplicitly token then
    openExplicitly fuel
    if endsContent (← peek) then return some null
    else return some (← node true false fuel)
  else return some (← node true false fuel)

/-- Whether a node begins here: after its properties there is content, or nothing but they. -/
def beginsNode : Reader Unit := do
  if let .aliasTo name := ← peek then
    let _ ← named name
    return ()
  let (name, tag) ← properties
  match ← peek with
  | .scalar _ _ | .openSequence | .openMapping | .blockSequence | .blockMapping => return ()
  | _ => if name.isNone && tag.isNone then failure

/-- Reads up to the first node of a further document, and fails if there is none. -/
def furtherDocument (implicitly : Bool) (fuel : Nat) : Reader Unit := do
  dropEnds fuel
  let token ← peek
  if token = .streamEnd then failure
  else if opensExplicitly token then
    openExplicitly fuel
    if !endsContent (← peek) then beginsNode
  else if implicitly then beginsNode
  else failure

/-- The end of a document, and whether it has a marker. No directive stands right behind a document
without one. -/
def documentEnd : Reader Bool := do
  match ← peek with
  | .documentEnd => do
    drop
    return true
  | .version | .handle _ _ | .otherDirective => failure
  | _ => return false

def document (fuel : Nat) : Reader Yaml := do
  match ← firstDocument fuel with
  | none => return null
  | some root =>
    let marked ← documentEnd
    let remaining ← get
    match (furtherDocument marked fuel).run { remaining with handles := [] } with
    | some _ => failure
    | none => return root

end Reader

/-- The one document of a text; null if the text has none. Every reader consumes a token before it
calls another one that comes around to it, so that a few times their number bounds the calls. -/
def read? (text : String) : Option Yaml :=
  let tokens := tokens text
  ((Reader.document (4 * tokens.length + 4)).run { tokens }).map (·.1)

end DecisionTree.Yaml
