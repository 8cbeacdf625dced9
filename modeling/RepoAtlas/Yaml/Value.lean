import RepoAtlas.Text.Base64
import RepoAtlas.Text.Case
import RepoAtlas.Yaml.Date
import RepoAtlas.Yaml.Node
import RepoAtlas.Yaml.Number

/-!
# `RepoAtlas.Yaml.Value`: the values of nodes

A collection holds the numbers of its parts, as its node does, so a document that contains itself
is a finite object. Of a set and of ordered pairs only the size is of interest, of a date nothing.

Scalars have a value of their own kind. A mapping with a value key stands for the scalar under that
key where a scalar is wanted.
-/

set_option autoImplicit false

namespace RepoAtlas.Yaml

open RepoAtlas.Number

/-- The value of a node. -/
inductive Value where
  | null
  | bool (value : Bool)
  | int (value : Int)
  | float (value : Binary64)
  | str (value : CodeText)
  | octets (value : List UInt8)
  | date
  | list (items : List NodeId)
  | pairs (size : Nat)
  | set (size : Nat)
  | map (members : List (NodeId × NodeId))
  deriving DecidableEq, Repr

/-- Whether a value can be a key: collections cannot. -/
def Value.isKey : Value → Bool
  | .list _ | .pairs _ | .set _ | .map _ => false
  | _ => true

/-- Whether a value counts as nothing: null, false, zero and everything empty. -/
def Value.isBlank : Value → Bool
  | .null => true
  | .bool value => !value
  | .int value => value = 0
  | .float value => value.toRat? = some 0
  | .str value => value = ""
  | .octets value => value.isEmpty
  | .date => false
  | .list items => items.isEmpty
  | .pairs size => size = 0
  | .set size => size = 0
  | .map members => members.isEmpty

/-- The words for truth values, in lower case. -/
def truthWords : List (String × Bool) :=
  [("yes", true), ("no", false), ("true", true), ("false", false), ("on", true), ("off", false)]

/-- The text of a node where a scalar is wanted, looking through at most the given number of
mappings with a value key. -/
def scalarText (nodes : Array Node) : Nat → NodeId → Except Fault CodeText
  | 0, _ => .error .tooDeep
  | fuel + 1, id =>
    match nodes[id]?.map Node.content with
    | some (.scalar value) => .ok value
    | some (.mapping pairs) =>
      match pairs.find? fun pair => (nodes[pair.1]?.map Node.tag) = some .value with
      | some (_, inner) => scalarText nodes fuel inner
      | none => .error .malformed
    | _ => .error .malformed

/-- Whether a node is a scalar itself. -/
def isScalar (nodes : Array Node) (id : NodeId) : Bool :=
  match nodes[id]?.map Node.content with
  | some (.scalar _) => true
  | _ => false

/-- The value of a text tagged as a date. -/
def dateValue (text : String) : Except Fault Value := do
  match Scalar.readStamp (Scalar.dropFinalBreak text.toList) with
  | some stamp =>
    checkStamp stamp
    return .date
  | none => throw .noDate

/-- The octets of a text tagged as binary. -/
def octetsValue (text : CodeText) : Except Fault Value :=
  let octets? := do
    let ascii ← text.toString?.filter fun ascii => ascii.toList.all (·.toNat < 128)
    Text.Base64.decode? ascii.toList
  match octets? with
  | some octets => .ok (.octets octets)
  | none => .error .malformed

/-- The truth value of a text tagged as one. -/
def truthValue (text : String) : Except Fault Value :=
  let word := Text.lower text
  match truthWords.lookup word with
  | some value => .ok (.bool value)
  | none => .error (.badBool word)

/-- The value of a node that is built at once; none for the kinds that are collections. No truth
value, number or date has a half in it. -/
def scalarValue (nodes : Array Node) (id : NodeId) (tag : Tag) : Option (Except Fault Value) :=
  let text := scalarText nodes (nodes.size + 1) id
  match tag with
  | .null => some (text.map fun _ => .null)
  | .bool => some (text >>= fun text => truthValue text.nulled)
  | .int => some (text >>= fun text => (integerValue text.nulled).map .int)
  | .float => some (text >>= fun text => (floatValue (Text.lower text.nulled)).map .float)
  | .binary => some (text >>= octetsValue)
  | .timestamp =>
    some (text >>= fun text =>
      if isScalar nodes id then dateValue text.nulled else .error .dateOfMapping)
  | .str => some (text.map .str)
  | .merge | .value | .other => some (.error .malformed)
  | .seq | .map | .set | .omap | .pairs => none

end RepoAtlas.Yaml
