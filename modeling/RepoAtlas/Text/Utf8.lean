/-!
# `RepoAtlas.Text.Utf8`: reading text from octets

UTF-8 is read one octet at a time. Between characters the reader waits for a first octet; inside
one it knows how many continuation octets are owed and within which bounds the next must lie, so
that overlong forms, surrogates and code points beyond the last plane are refused at the first
octet that rules them out. A refused sequence is the longest one that could still have been
continued, which makes the number of replacement characters definite.

`decode?` accepts well-formed text only; `decodeLossy` puts U+FFFD for each refused sequence.
-/

set_option autoImplicit false

namespace RepoAtlas.Text.Utf8

/-- Why a sequence of octets is no character. -/
inductive Fault where
  /-- The octet starts no character. -/
  | invalidStart
  /-- The next octet cannot continue the character. -/
  | invalidContinuation
  /-- The text ends inside the character. -/
  | truncated
  deriving DecidableEq, Repr

/-- A piece of the input: a character, or a refused sequence. -/
inductive Piece where
  | char (c : Char)
  | broken (octets : List UInt8) (fault : Fault)
  deriving DecidableEq, Repr

/-- A character of which some octets are still owed. -/
structure Pending where
  /-- The octets read so far, last first. -/
  octets : List UInt8
  /-- How many octets are owed after the next one. -/
  owed : Nat
  /-- The least next octet. -/
  low : UInt8
  /-- The greatest next octet. -/
  high : UInt8
  /-- The payload bits read so far. -/
  code : Nat

/-- What a first octet announces. -/
def start (octet : UInt8) : Piece ⊕ Pending :=
  if octet < 0x80 then .inl (.char (Char.ofNat octet.toNat))
  else if octet < 0xC2 then .inl (.broken [octet] .invalidStart)
  else if octet < 0xE0 then .inr ⟨[octet], 0, 0x80, 0xBF, octet.toNat - 0xC0⟩
  else if octet = 0xE0 then .inr ⟨[octet], 1, 0xA0, 0xBF, 0⟩
  else if octet = 0xED then .inr ⟨[octet], 1, 0x80, 0x9F, 0xD⟩
  else if octet < 0xF0 then .inr ⟨[octet], 1, 0x80, 0xBF, octet.toNat - 0xE0⟩
  else if octet = 0xF0 then .inr ⟨[octet], 2, 0x90, 0xBF, 0⟩
  else if octet < 0xF4 then .inr ⟨[octet], 2, 0x80, 0xBF, octet.toNat - 0xF0⟩
  else if octet = 0xF4 then .inr ⟨[octet], 2, 0x80, 0x8F, 4⟩
  else .inl (.broken [octet] .invalidStart)

/-- Reads a continuation octet that lies within the bounds. -/
def Pending.extend (p : Pending) (octet : UInt8) : Piece ⊕ Pending :=
  let code := p.code * 64 + (octet.toNat - 0x80)
  match p.owed with
  | 0 => .inl (.char (Char.ofNat code))
  | owed + 1 => .inr ⟨octet :: p.octets, owed, 0x80, 0xBF, code⟩

/-- The refused sequence that a pending character turns into. -/
def Pending.refuse (p : Pending) (fault : Fault) : Piece :=
  .broken p.octets.reverse fault

/-- Where the reader stands: the pieces read so far, last first, and the character under way. -/
structure Reader where
  done : List Piece
  pending : Option Pending

/-- Takes in what a first or a continuation octet led to. -/
def Reader.take (r : Reader) : Piece ⊕ Pending → Reader
  | .inl piece => ⟨piece :: r.done, none⟩
  | .inr pending => ⟨r.done, some pending⟩

/-- Reads one octet. An octet that cannot continue the character under way starts another one. -/
def Reader.step (r : Reader) (octet : UInt8) : Reader :=
  match r.pending with
  | none => r.take (start octet)
  | some p =>
    if p.low ≤ octet && octet ≤ p.high then r.take (p.extend octet)
    else Reader.take ⟨p.refuse .invalidContinuation :: r.done, none⟩ (start octet)

/-- The pieces read, in order, when the input ends. -/
def Reader.finish (r : Reader) : List Piece :=
  match r.pending with
  | none => r.done.reverse
  | some p => (p.refuse .truncated :: r.done).reverse

/-- The characters and refused sequences of an input, in order. -/
def pieces (octets : List UInt8) : List Piece :=
  (octets.foldl Reader.step ⟨[], none⟩).finish

/-- The first refused sequence, with the offset of its first octet. -/
def firstBroken? : List Piece → Nat → Option (Nat × List UInt8 × Fault)
  | [], _ => none
  | .char c :: rest, offset => firstBroken? rest (offset + c.utf8Size)
  | .broken octets fault :: _, offset => some (offset, octets, fault)

/-- The characters among the pieces. -/
def Piece.char? : Piece → Option Char
  | .char c => some c
  | .broken _ _ => none

/-- The text of a well-formed input. -/
def decode? (octets : List UInt8) : Option (List Char) :=
  let read := pieces octets
  if read.all (·.char?.isSome) then some (read.filterMap Piece.char?) else none

/-- The text of any input, with U+FFFD for each refused sequence. -/
def decodeLossy (octets : List UInt8) : List Char :=
  (pieces octets).map fun piece => piece.char?.getD (Char.ofNat 0xFFFD)

/-- The octets of a text. -/
def encode (text : String) : List UInt8 :=
  text.toUTF8.toList

end RepoAtlas.Text.Utf8
