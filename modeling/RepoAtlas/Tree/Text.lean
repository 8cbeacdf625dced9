import RepoAtlas.Text.Utf8
import RepoAtlas.Tree.Canonical

/-!
# `RepoAtlas.Tree.Text`: files as texts

A file of settings or data must be UTF-8 throughout; carriage returns that end lines are dropped
and those that stand alone become line feeds. Source files are read leniently and as they are.
-/

set_option autoImplicit false

namespace RepoAtlas.Tree

/-- Why a file cannot be read as a text. -/
inductive TextFault where
  | system (fault : Fault)
  /-- The octets from an offset on are no UTF-8. -/
  | malformed (offset : Nat) (octets : List UInt8) (fault : Text.Utf8.Fault)
  deriving DecidableEq, Repr

/-- The wording for a refused sequence of octets. -/
def octetsText : Text.Utf8.Fault → String
  | .invalidStart => "invalid start byte"
  | .invalidContinuation => "invalid continuation byte"
  | .truncated => "unexpected end of data"

/-- The wording of a fault of the file at a path. -/
def TextFault.message (path : String) : TextFault → String
  | .system fault => fault.message path
  | .malformed offset octets fault =>
    let place := match octets with
      | [octet] => s!"byte 0x{Text.hexPadded 2 octet.toNat} in position {offset}"
      | _ => s!"bytes in position {offset}-{offset + octets.length - 1}"
    s!"'utf-8' codec can't decode {place}: {octetsText fault}"

/-- Drops carriage returns before line feeds and turns the others into line feeds. The text read
so far is given last character first. -/
def settleLinesOnto (done : List Char) : List Char → List Char
  | [] => done.reverse
  | '\r' :: '\n' :: rest => settleLinesOnto ('\n' :: done) rest
  | c :: rest => settleLinesOnto ((if c = '\r' then '\n' else c) :: done) rest

/-- A text in which every line ends with a line feed. -/
def settleLines (text : List Char) : List Char :=
  settleLinesOnto [] text

/-- The text of the file that a path leads to. -/
def readText (tree : Tree) (path : String) : Except TextFault (List Char) :=
  match tree.readOctets path with
  | .error fault => .error (.system fault)
  | .ok octets =>
    match Text.Utf8.firstBroken? (Text.Utf8.pieces octets) 0 with
    | some (offset, octets, fault) => .error (.malformed offset octets fault)
    | none => .ok (settleLines (Text.Utf8.decodeLossy octets))

/-- The text of the source file that a path leads to. -/
def readSource (tree : Tree) (path : String) : Except Fault (List Char) :=
  (tree.readOctets path).map Text.Utf8.decodeLossy

end RepoAtlas.Tree
