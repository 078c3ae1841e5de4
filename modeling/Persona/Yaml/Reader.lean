import Persona.Yaml.Node
import Persona.Yaml.Token.Lexer

/-!
# Reading YAML

The tokens of a stream are read into a document. Only the first document of a stream
is read; what follows it does not matter, as long as its first tokens can be told.

Where a node should stand there may also be none, which is the same as an empty
plain scalar.
-/

namespace Persona.Yaml

/-- What has been read so far: the tokens left, what the handles of tags stand for, the
anchors, the latest one first, and the nodes that have one. -/
structure Reading where
  tokens : List Token
  handles : List (Text × Text) := []
  anchors : List (Text × Nat) := []
  anchored : List (Nat × Node) := []

/-- A part of a document that is read from its tokens. -/
abbrev Reader (α : Type) := StateT Reading Option α

namespace Reader

/-- The next token, which is not taken. -/
def peek : Reader Token := do
  match (← get).tokens with
  | token :: _ => return token
  | [] => failure

/-- Pass over the next token. -/
def skip : Reader Unit := modify fun r => { r with tokens := r.tokens.tail }

/-- Pass over the next token if it is a certain one. -/
def accept (token : Token) : Reader Bool := do
  if (← peek) = token then
    skip
    return true
  else return false

/-- The comma before every part of a bracket but the first. -/
def separator (first : Bool) : Reader Unit := do
  if first then return ()
  else if ← accept .comma then return ()
  else failure

/-- What may stand before a node: an anchor and a tag. -/
structure Properties where
  anchor : Option Nat := none
  tag : Text := []

/-- Give a name to the node that comes next. -/
def addAnchor (name : Text) : Reader Nat := do
  let number := (← get).anchors.length
  modify fun r => { r with anchors := (name, number) :: r.anchors }
  return number

/-- The whole tag for a handle and the rest of an address. -/
def wholeTag (handle rest : Text) : Reader Text := do
  if handle.isEmpty then return rest
  else match (← get).handles.lookup handle with
    | some start => return start ++ rest
    | none => failure

/-- An anchor, if there is one. -/
def anchor : Reader (Option Nat) := do
  match ← peek with
  | .anchor name =>
    skip
    return some (← addAnchor name)
  | _ => return none

/-- A tag, if there is one. -/
def tag : Reader (Option Text) := do
  match ← peek with
  | .tag handle rest =>
    skip
    return some (← wholeTag handle rest)
  | _ => return none

/-- Anchor and tag, in either order. -/
def properties : Reader Properties := do
  match ← anchor with
  | some number => return ⟨some number, (← tag).getD []⟩
  | none =>
    match ← tag with
    | some name => return ⟨← anchor, name⟩
    | none => return {}

/-- An anchor or a tag alone stands before an empty plain scalar. -/
def Properties.alone (p : Properties) : Reader Node :=
  if p.anchor.isSome || !p.tag.isEmpty then
    return .scalar { quoted := false, text := [], tag := p.tag }
  else failure

/-- Keep a node that has an anchor. -/
def keep (p : Properties) (node : Node) : Reader Node := do
  match p.anchor with
  | some number =>
    modify fun r => { r with anchored := (number, node) :: r.anchored }
    return node
  | none => return node

mutual

/-- A node. A block may start only where `block` says so, and the items of a list may
share the column of the key before them where `shared` does. -/
def node : (fuel : Nat) → (block shared : Bool) → Reader Node
  | 0, _, _ => failure
  | fuel + 1, block, shared => do
    match ← peek with
    | .alias name =>
      skip
      match (← get).anchors.lookup name with
      | some target => return .alias name target
      | none => failure
    | _ =>
      let p ← properties
      match ← peek with
      | .scalar quoted text =>
        skip
        keep p (.scalar { quoted := quoted, text := text, tag := p.tag })
      | .listStart =>
        skip
        keep p (.list (← bracketItems fuel true))
      | .mappingStart =>
        skip
        keep p (.mapping (← bracketEntries fuel true))
      | .item => if shared then keep p (.list (← sharedItems fuel)) else keep p (← p.alone)
      | .blockListStart =>
        if block then
          skip
          keep p (.list (← blockItems fuel))
        else keep p (← p.alone)
      | .blockMappingStart =>
        if block then
          skip
          keep p (.mapping (← blockEntries fuel))
        else keep p (← p.alone)
      | _ => keep p (← p.alone)

/-- A node, or none where a token comes next that cannot start one. -/
def nodeUnless : (fuel : Nat) → (ends : Token → Bool) → (block shared : Bool) → Reader Node
  | 0, _, _, _ => failure
  | fuel + 1, ends, block, shared => do
    if ends (← peek) then return .absent else node fuel block shared

/-- The items of a list in a block of its own. -/
def blockItems : (fuel : Nat) → Reader (List Node)
  | 0 => failure
  | fuel + 1 => do
    if ← accept .item then
      let first ← nodeUnless fuel (fun t => t = .item || t = .blockEnd) true false
      return first :: (← blockItems fuel)
    else if ← accept .blockEnd then return []
    else failure

/-- The items of a list that shares the column of a key. It ends before any
other token. -/
def sharedItems : (fuel : Nat) → Reader (List Node)
  | 0 => failure
  | fuel + 1 => do
    if ← accept .item then
      let first ← nodeUnless fuel (fun t => t = .item || t.endsBlockPart) true false
      return first :: (← sharedItems fuel)
    else return []

/-- The entries of a mapping in a block. -/
def blockEntries : (fuel : Nat) → Reader (List (Node × Node))
  | 0 => failure
  | fuel + 1 => do
    if ← accept .key then
      let key ← nodeUnless fuel Token.endsBlockPart true true
      let value ← if ← accept .value then nodeUnless fuel Token.endsBlockPart true true
        else pure .absent
      return (key, value) :: (← blockEntries fuel)
    else if ← accept .blockEnd then return []
    else failure

/-- The items of a list between brackets. Behind the first one each has a comma
before it, and the last may have one behind it. A key is an item of its own: a
mapping with one entry. -/
def bracketItems : (fuel : Nat) → (first : Bool) → Reader (List Node)
  | 0, _ => failure
  | fuel + 1, first => do
    if ← accept .listEnd then return []
    else
      separator first
      if ← accept .listEnd then return []
      else if ← accept .key then
        let entry ← bracketPair fuel
        return .mapping [entry] :: (← bracketItems fuel false)
      else
        let item ← node fuel false false
        return item :: (← bracketItems fuel false)

/-- The entry of a list between brackets that has a key. If the key is missing, the token
in its place is passed over. -/
def bracketPair : (fuel : Nat) → Reader (Node × Node)
  | 0 => failure
  | fuel + 1 => do
    let next ← peek
    let key ←
      if next = .value || next = .comma || next = .listEnd then
        skip
        pure Node.absent
      else node fuel false false
    let value ←
      if ← accept .value then nodeUnless fuel (fun t => t = .comma || t = .listEnd) false false
      else pure .absent
    return (key, value)

/-- The entries of a mapping between brackets. An entry without a key mark is a key that
has no value. -/
def bracketEntries : (fuel : Nat) → (first : Bool) → Reader (List (Node × Node))
  | 0, _ => failure
  | fuel + 1, first => do
    if ← accept .mappingEnd then return []
    else
      separator first
      if ← accept .mappingEnd then return []
      else if ← accept .key then
        let key ← nodeUnless fuel (fun t => t = .value || t = .comma || t = .mappingEnd)
          false false
        let value ←
          if ← accept .value then
            nodeUnless fuel (fun t => t = .comma || t = .mappingEnd) false false
          else pure .absent
        return (key, value) :: (← bracketEntries fuel false)
      else
        let key ← node fuel false false
        return (key, .absent) :: (← bracketEntries fuel false)

end

/-- What handles stand for if a document does not say anything else. -/
def defaultHandles : List (Text × Text) := [("!", "!"), ("!!", Scalar.standardTag)]

/-- The directives before a document. The version may be asked for once, and there is only
one that can be read; a handle may have one meaning. -/
def directives : (fuel : Nat) → (versioned : Bool) → Reader Unit
  | 0, _ => failure
  | fuel + 1, versioned => do
    match ← peek with
    | .version major minor =>
      if versioned || major != 1 || minor != 1 then failure
      else
        skip
        directives fuel true
    | .handle name start =>
      if ((← get).handles.lookup name).isSome then failure
      else
        skip
        modify fun r => { r with handles := r.handles ++ [(name, start)] }
        directives fuel versioned
    | _ => modify fun r => { r with handles := r.handles ++ defaultHandles }

/-- The root of the first document. A stream without one has an empty root. -/
def root (fuel : Nat) : Reader Node := do
  match ← peek with
  | .streamEnd => return .absent
  | opening =>
    let marked := opening.endsDocument && opening != .documentEnd
    directives fuel false
    if marked then
      if ← accept .documentStart then nodeUnless fuel Token.endsDocument true false
        else failure
    else node fuel true false

end Reader

/-- The first document of a text, or nothing if it is malformed. -/
def read? (text : Text) : Option Document := do
  let lexed := Lexer.ofStream (.ofText text)
  let count := lexed.tokens.length
  let (root, left) ← (Reader.root (3 * count + 3)).run { tokens := lexed.tokens }
  if lexed.isClear (count - left.tokens.length) then
    return { root := root, anchored := left.anchored, size := count }
  else none

end Persona.Yaml
