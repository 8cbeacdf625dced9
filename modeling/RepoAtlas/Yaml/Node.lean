import RepoAtlas.Yaml.Scalar

/-!
# `RepoAtlas.Yaml.Node`: the nodes of a document

A document is a graph of nodes: an alias is another way to the node that an anchor names, and a
node may contain itself. Nodes are numbered in the order in which they start; a collection holds
the numbers of its parts. Nodes may nest 300 deep.

The nodes are read off the tokens by one function for each kind of collection. A fault of the
lexer shows only when all tokens before it have been used up.
-/

set_option autoImplicit false

namespace RepoAtlas.Yaml

/-- The number of a node. -/
abbrev NodeId := Nat

/-- What a node holds. -/
inductive Content where
  | scalar (value : CodeText)
  | sequence (items : List NodeId)
  | mapping (pairs : List (NodeId × NodeId))
  deriving DecidableEq, Repr

/-- A node of a document. -/
structure Node where
  tag : Tag
  content : Content
  deriving DecidableEq, Repr

instance : Inhabited Node := ⟨⟨.null, .scalar ""⟩⟩

/-- Where the reader of nodes stands. -/
structure Composer where
  tokens : List Token
  /-- What is wrong with the text after the last token. -/
  fault : Option Fault
  nodes : Array Node := #[]
  anchors : List (String × NodeId) := []
  /-- What the handles of tags stand for. -/
  handles : List (String × String) := []

/-- A step of the reader of nodes. -/
abbrev Compose := EStateM Fault Composer

/-- The deepest nesting of nodes. -/
def maxDepth : Nat := 300

/-- The handles that need no directive. -/
def standardHandles : List (String × String) := [("!", "!"), ("!!", coreStart)]

namespace Compose

/-- The next token. -/
def peek : Compose Token := do
  let s ← get
  match s.tokens with
  | token :: _ => return token
  | [] => throw (s.fault.getD .malformed)

/-- Whether the next token is one of the given ones. -/
def atAny (tokens : List Token) : Compose Bool :=
  return tokens.contains (← peek)

/-- Goes on to the token after the next one. -/
def skip : Compose Unit :=
  modify fun s => { s with tokens := s.tokens.tail }

/-- Goes on if the next token is the given one. -/
def skipIf (token : Token) : Compose Bool := do
  if (← peek) = token then
    skip
    return true
  else
    return false

/-- Adds a node. -/
def addNode (node : Node) : Compose NodeId := do
  let s ← get
  set { s with nodes := s.nodes.push node }
  return s.nodes.size

/-- Gives a node its parts. -/
def fill (id : NodeId) (content : Content) : Compose Unit :=
  modify fun s => { s with nodes := s.nodes.modify id fun node => { node with content := content } }

/-- The node that stands where nothing is written. -/
def addEmpty : Compose NodeId :=
  addNode ⟨.null, .scalar ""⟩

/-- Reads an anchor, if there is one. -/
def readAnchor : Compose (Option String) := do
  match ← peek with
  | .anchor name =>
    skip
    return some name
  | _ => return none

/-- Reads a tag, if there is one, and gives its full name. -/
def readTag : Compose (Option (Option String × String)) := do
  match ← peek with
  | .tag handle suffix =>
    skip
    return some (handle, suffix)
  | _ => return none

/-- Reads an anchor and a tag in either order. -/
def readProperties : Compose (Option String × Option (Option String × String)) := do
  match ← readAnchor with
  | some anchor => return (some anchor, ← readTag)
  | none =>
    match ← readTag with
    | some tag => return (← readAnchor, some tag)
    | none => return (none, none)

/-- The full name of a tag. -/
def expandTag : Option (Option String × String) → Compose (Option String)
  | none => return none
  | some (none, suffix) => return some suffix
  | some (some handle, suffix) => do
    match (← get).handles.lookup handle with
    | some start => return some (start ++ suffix)
    | none => throw .malformed

/-- The kind of a collection: the standard one unless a tag names another. -/
def collectionTag (standard : Tag) : Option String → Tag
  | none => standard
  | some name => if name = "!" then standard else Tag.ofName name

/-- The kind of a scalar: what a plain one spells, a text otherwise, unless a tag names another. -/
def scalarTag (value : CodeText) (plain : Bool) : Option String → Tag
  | none => if plain then Scalar.plainTag value.nulled else .str
  | some name => if name = "!" then Scalar.plainTag value.nulled else Tag.ofName name

/-- Adds a node that starts here, under its anchor. No two nodes have the same anchor. -/
def startNode (anchor : Option String) (node : Node) : Compose NodeId := do
  match anchor with
  | none => addNode node
  | some name =>
    if ((← get).anchors.lookup name).isSome then
      throw .malformed
    let id ← addNode node
    modify fun s => { s with anchors := (name, id) :: s.anchors }
    return id

mutual

/-- Reads a node. `block` allows block collections and `bare` the items of a sequence without
indentation of its own. -/
def node : (fuel depth : Nat) → (block bare : Bool) → Compose NodeId
  | 0, _, _, _ => throw .tooDeep
  | fuel + 1, depth, block, bare => do
    if let .alias name ← peek then
      skip
      match (← get).anchors.lookup name with
      | some id => return id
      | none => throw .malformed
    let (anchor, written) ← readProperties
    let tag ← expandTag written
    -- An alias does not nest any deeper, so the depth counts only from here.
    if maxDepth < depth then
      throw .tooDeep
    match ← peek with
    | .scalar value plain =>
      skip
      startNode anchor ⟨scalarTag value plain tag, .scalar value⟩
    | .flowSequenceStart =>
      skip
      let id ← startNode anchor ⟨collectionTag .seq tag, .sequence []⟩
      fill id (.sequence (← flowItems fuel depth true []))
      return id
    | .flowMappingStart =>
      skip
      let id ← startNode anchor ⟨collectionTag .map tag, .mapping []⟩
      fill id (.mapping (← flowPairs fuel depth true []))
      return id
    | token =>
      if bare && token = .blockEntry then
        let id ← startNode anchor ⟨collectionTag .seq tag, .sequence []⟩
        fill id (.sequence (← bareItems fuel depth []))
        return id
      else if block && token = .blockSequenceStart then
        skip
        let id ← startNode anchor ⟨collectionTag .seq tag, .sequence []⟩
        fill id (.sequence (← blockItems fuel depth []))
        return id
      else if block && token = .blockMappingStart then
        skip
        let id ← startNode anchor ⟨collectionTag .map tag, .mapping []⟩
        fill id (.mapping (← blockPairs fuel depth []))
        return id
      -- Properties without content describe an empty scalar.
      else if anchor.isSome || tag.isSome then
        startNode anchor ⟨scalarTag "" true tag, .scalar ""⟩
      else
        throw .malformed

/-- Reads a node, or nothing before the given tokens. -/
def nodeUnless : (fuel depth : Nat) → (block bare : Bool) → List Token → Compose NodeId
  | 0, _, _, _, _ => throw .tooDeep
  | fuel + 1, depth, block, bare, stops => do
    if ← atAny stops then addEmpty
    else node fuel (depth + 1) block bare

/-- Reads the items of a block sequence, given those read so far, last first. -/
def blockItems : (fuel depth : Nat) → List NodeId → Compose (List NodeId)
  | 0, _, _ => throw .tooDeep
  | fuel + 1, depth, done => do
    if ← skipIf .blockEntry then
      let item ← nodeUnless fuel depth true false [.blockEntry, .blockEnd]
      blockItems fuel depth (item :: done)
    else if ← skipIf .blockEnd then
      return done.reverse
    else
      throw .malformed

/-- Reads the items of a sequence without indentation of its own. -/
def bareItems : (fuel depth : Nat) → List NodeId → Compose (List NodeId)
  | 0, _, _ => throw .tooDeep
  | fuel + 1, depth, done => do
    if ← skipIf .blockEntry then
      let item ← nodeUnless fuel depth true false [.blockEntry, .key, .value, .blockEnd]
      bareItems fuel depth (item :: done)
    else
      return done.reverse

/-- Reads the pairs of a block mapping. -/
def blockPairs : (fuel depth : Nat) → List (NodeId × NodeId) → Compose (List (NodeId × NodeId))
  | 0, _, _ => throw .tooDeep
  | fuel + 1, depth, done => do
    let stops := [Token.key, .value, .blockEnd]
    if ← skipIf .blockEnd then
      return done.reverse
    unless ← skipIf .key do
      throw .malformed
    let key ← nodeUnless fuel depth true true stops
    let value ← do
      if ← skipIf .value then nodeUnless fuel depth true true stops else addEmpty
    blockPairs fuel depth ((key, value) :: done)

/-- Reads the items of a flow sequence. A key without brackets around it is a mapping of one
pair. -/
def flowItems : (fuel depth : Nat) → (first : Bool) → List NodeId → Compose (List NodeId)
  | 0, _, _, _ => throw .tooDeep
  | fuel + 1, depth, first, done => do
    if ← skipIf .flowSequenceEnd then
      return done.reverse
    unless first do
      unless ← skipIf .flowEntry do
        throw .malformed
    if ← skipIf .key then
      let id ← addNode ⟨.map, .mapping []⟩
      let stops := [Token.flowEntry, .flowSequenceEnd]
      let key ← nodeUnless fuel (depth + 1) false false (.value :: stops)
      let value ← do
        if ← skipIf .value then nodeUnless fuel (depth + 1) false false stops else addEmpty
      fill id (.mapping [(key, value)])
      flowItems fuel depth false (id :: done)
    else if ← skipIf .flowSequenceEnd then
      return done.reverse
    else
      let item ← node fuel (depth + 1) false false
      flowItems fuel depth false (item :: done)

/-- Reads the pairs of a flow mapping. -/
def flowPairs :
    (fuel depth : Nat) → (first : Bool) → List (NodeId × NodeId) → Compose (List (NodeId × NodeId))
  | 0, _, _, _ => throw .tooDeep
  | fuel + 1, depth, first, done => do
    if ← skipIf .flowMappingEnd then
      return done.reverse
    unless first do
      unless ← skipIf .flowEntry do
        throw .malformed
    let stops := [Token.flowEntry, .flowMappingEnd]
    if ← skipIf .key then
      let key ← nodeUnless fuel depth false false (.value :: stops)
      let value ← do
        if ← skipIf .value then nodeUnless fuel depth false false stops else addEmpty
      flowPairs fuel depth false ((key, value) :: done)
    else if ← skipIf .flowMappingEnd then
      return done.reverse
    else
      let key ← node fuel (depth + 1) false false
      let value ← addEmpty
      flowPairs fuel depth false ((key, value) :: done)

end

/-! ## Documents -/

/-- Reads the directives before a document. -/
def directives : List Token → Bool → List (String × String) → Compose (List (String × String))
  | [], _, handles => return handles
  | token :: rest, versioned, handles => do
    match token with
    | .version major =>
      if versioned || major ≠ 1 then
        throw .malformed
      skip
      directives rest true handles
    | .tagHandle handle start =>
      if (handles.lookup handle).isSome then
        throw .malformed
      skip
      directives rest versioned ((handle, start) :: handles)
    | .directive =>
      skip
      directives rest versioned handles
    | _ => return handles

/-- Whether the next token is a directive. -/
def atDirective : Compose Bool := do
  match ← peek with
  | .version _ | .tagHandle _ _ | .directive => return true
  | _ => return false

/-- Skips the marks of documents that end here. -/
def skipDocumentEnds : List Token → Compose Unit
  | .documentEnd :: rest => do
    skip
    skipDocumentEnds rest
  | _ => return ()

/-- Reads the content of the one document, unless the text has none. -/
def document (fuel : Nat) : Compose (Option NodeId) := do
  if ← do if ← atDirective then pure false else pure !(← atAny [.documentStart, .streamEnd]) then
    modify fun s => { s with handles := standardHandles }
    return some (← node fuel 0 true false)
  skipDocumentEnds (← get).tokens
  if (← peek) = .streamEnd then
    return none
  let handles ← directives (← get).tokens false []
  modify fun s => { s with handles := handles ++ standardHandles }
  unless ← skipIf .documentStart do
    throw .malformed
  if ← do if ← atDirective then pure true else atAny [.documentStart, .documentEnd, .streamEnd] then
    return some (← addEmpty)
  else
    return some (← node fuel 0 true false)

/-- Reads the one document of a text; nothing but the marks of its end may follow. -/
def single (fuel : Nat) : Compose (Option NodeId) := do
  match ← document fuel with
  | none => return none
  | some root =>
    let _ ← skipIf .documentEnd
    skipDocumentEnds (← get).tokens
    unless (← peek) = .streamEnd do
      throw .malformed
    return some root

end Compose

/-- The nodes of a text and the number of its outermost one, if it has any. Each call uses up a
token or hands on to one that does. -/
def compose (tokens : List Token) (fault : Option Fault) :
    Except Fault (Option (Array Node × NodeId)) :=
  match (Compose.single (4 * tokens.length + 8)).run { tokens, fault } with
  | .ok root s => .ok (root.map fun root => (s.nodes, root))
  | .error fault _ => .error fault

end RepoAtlas.Yaml
