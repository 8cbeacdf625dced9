import RepoAtlas.Yaml.Token.Scan
import RepoAtlas.Yaml.Value

/-!
# `RepoAtlas.Yaml.Document`: the value of a text

Nodes get their values in two waves. A scalar has its value at once. A collection has a value as
soon as it is met, so that it may contain itself, and gets its parts later: collections that wait
for their parts are served in the order in which they were met. Faults therefore show in that
order too.

Merge keys are resolved when a mapping gets its parts: what they name comes before the pairs of
the mapping itself, so that its own pairs win, and of two pairs with one key the later wins.
-/

set_option autoImplicit false

namespace RepoAtlas.Yaml

/-- The values of the nodes of a text. -/
structure Document where
  values : Array (Option Value)
  root : Value

namespace Document

/-- The value of a node. -/
def value (document : Document) (id : NodeId) : Value :=
  (document.values[id]?.join).getD .null

/-- What a mapping has under a text, the last one if there are several; null for anything else. -/
def member (document : Document) (name : String) : Value → Value
  | .map members =>
    match members.reverse.find? fun pair => document.value pair.1 = .str name with
    | some (_, id) => document.value id
    | none => .null
  | _ => .null

/-- The values of the items of a sequence. -/
def items (document : Document) : Value → List Value
  | .list ids => ids.map document.value
  | _ => []

/-- Nodes on the way to their values. -/
structure Builder where
  nodes : Array Node
  values : Array (Option Value)
  /-- The collections that wait for their parts, last met first. -/
  waiting : List NodeId := []

/-- A step of the builder of values. -/
abbrev Build := EStateM Fault Builder

namespace Build

/-- The node with a number. -/
def nodeAt (id : NodeId) : Build Node :=
  return (← get).nodes[id]?.getD default

/-- The pairs of a node, if it is a mapping. -/
def pairsAt? (id : NodeId) : Build (Option (List (NodeId × NodeId))) := do
  match (← nodeAt id).content with
  | .mapping pairs => return some pairs
  | _ => return none

/-- Gives a mapping other pairs. -/
def setPairs (id : NodeId) (pairs : List (NodeId × NodeId)) : Build Unit :=
  modify fun s => { s with
    nodes := s.nodes.modify id fun node => { node with content := .mapping pairs } }

/-- Gives a node another kind. -/
def setTag (id : NodeId) (tag : Tag) : Build Unit :=
  modify fun s => { s with nodes := s.nodes.modify id fun node => { node with tag := tag } }

/-- Gives a node its value. -/
def setValue (id : NodeId) (value : Value) : Build Unit :=
  modify fun s => { s with values := s.values.setIfInBounds id (some value) }

/-- The value of a node as far as it is known; a collection that is met for the first time is put
among those that wait. -/
def meet (id : NodeId) : Build Value := do
  let s ← get
  match s.values[id]?.join with
  | some value => return value
  | none =>
    let tag := (← nodeAt id).tag
    match scalarValue s.nodes id tag with
    | some (.ok value) =>
      setValue id value
      return value
    | some (.error fault) => throw fault
    | none =>
      let value : Value := match tag with
        | .map => .map []
        | .set => .set 0
        | .seq => .list []
        | _ => .pairs 0
      -- The empty value stands in until the parts are there, also for a node inside itself.
      setValue id value
      modify fun s => { s with waiting := id :: s.waiting }
      return value

mutual

/-- The pairs that the target of a merge key brings: those of a mapping, or those of several
mappings, last one first. -/
def merged : Nat → NodeId → Build (List (NodeId × NodeId))
  | 0, _ => throw .tooDeep
  | fuel + 1, target => do
    match (← nodeAt target).content with
    | .mapping _ =>
      flatten fuel target
      return (← pairsAt? target).getD []
    | .sequence items =>
      let parts ← items.mapM fun item => do
        if (← pairsAt? item).isNone then
          throw .malformed
        flatten fuel item
        return (← pairsAt? item).getD []
      return parts.reverse.flatten
    | .scalar _ => throw .malformed

/-- Replaces the merge keys of a mapping by the pairs that they bring. -/
def flatten : Nat → NodeId → Build Unit
  | 0, _ => throw .tooDeep
  | fuel + 1, id => do
    let brought ← flattenFrom fuel id 0 []
    unless brought.isEmpty do
      setPairs id (brought ++ (← pairsAt? id).getD [])

/-- Resolves the merge keys of a mapping from a position on and collects what they bring. The
pairs are looked up anew at each step, since a mapping may be merged into itself. -/
def flattenFrom :
    Nat → NodeId → Nat → List (NodeId × NodeId) → Build (List (NodeId × NodeId))
  | 0, _, _, _ => throw .tooDeep
  | fuel + 1, id, position, brought => do
    let pairs := (← pairsAt? id).getD []
    match pairs[position]? with
    | none => return brought
    | some (key, target) =>
      match (← nodeAt key).tag with
      | .merge =>
        -- The key goes first: the target may be this very mapping.
        setPairs id (pairs.eraseIdx position)
        let more ← merged fuel target
        flattenFrom fuel id position (brought ++ more)
      | .value =>
        setTag key .str
        flattenFrom fuel id (position + 1) brought
      | _ => flattenFrom fuel id (position + 1) brought

end

/-- Whether a mapping has keys that `flatten` takes care of. -/
def hasSpecialKeys (pairs : List (NodeId × NodeId)) : Build Bool := do
  let s ← get
  return pairs.any fun pair =>
    match s.nodes[pair.1]?.map Node.tag with
    | some .merge | some .value => true
    | _ => false

/-- A number of steps that suffices to resolve the merge keys of any mapping: each one that is
resolved is gone for good, and between two of them no more pairs are passed than there are. -/
def flattenFuel (nodes : Array Node) : Nat :=
  let pairs := nodes.foldl (fun total node =>
    match node.content with
    | .mapping pairs => total + pairs.length
    | .sequence items => total + items.length
    | .scalar _ => total) 0
  4 * (pairs + 2) * (pairs + 2)

/-- Gives a mapping its parts. -/
def members (id : NodeId) : Build (List (NodeId × NodeId)) := do
  match ← pairsAt? id with
  | none => throw .malformed
  | some pairs =>
    if ← hasSpecialKeys pairs then
      flatten (flattenFuel (← get).nodes) id
    let pairs := (← pairsAt? id).getD []
    for (key, value) in pairs do
      unless (← meet key).isKey do
        throw .malformed
      let _ ← meet value
    return pairs

/-- Gives ordered pairs their parts: each item is a mapping with one pair. -/
def orderedPairs (items : List NodeId) : Build Unit := do
  for item in items do
    match ← pairsAt? item with
    | some [(key, value)] =>
      let _ ← meet key
      let _ ← meet value
    | _ => throw .malformed

/-- Gives a collection its parts. -/
def complete (id : NodeId) : Build Unit := do
  let node ← nodeAt id
  match node.tag, node.content with
  | .map, _ => setValue id (.map (← members id))
  | .set, _ => setValue id (.set (← members id).length)
  | .seq, .sequence items =>
    for item in items do
      let _ ← meet item
    setValue id (.list items)
  | .omap, .sequence items | .pairs, .sequence items =>
    orderedPairs items
    setValue id (.pairs items.length)
  | _, _ => throw .malformed

/-- Completes the collections that wait, round after round. A node waits at most once. -/
def completeAll : (rounds : Nat) → Build Unit
  | 0 => return
  | rounds + 1 => do
    match (← get).waiting.reverse with
    | [] => return
    | batch =>
      modify fun s => { s with waiting := [] }
      batch.forM complete
      completeAll rounds

/-- The value of a node and of everything it contains. -/
def document (root : NodeId) : Build Document := do
  let _ ← meet root
  completeAll ((← get).nodes.size + 1)
  let values := (← get).values
  return ⟨values, (values[root]?.join).getD .null⟩

end Build

/-- The document without content. -/
def empty : Document := ⟨#[], .null⟩

/-- Reads a text. All of it is composed before any value is built. -/
def read (text : List Char) : Except Fault Document :=
  if text.all isAllowed then do
    let (tokens, fault) := scan text
    match ← compose tokens fault with
    | none => return empty
    | some (nodes, root) =>
      match (Build.document root).run ⟨nodes, Array.replicate nodes.size none, []⟩ with
      | .ok document _ => return document
      | .error fault _ => throw fault
  else .error .malformed

end Document

end RepoAtlas.Yaml
