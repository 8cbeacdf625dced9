/-!
# `RepoAtlas.Text.Base64`: octets written in sixty-four characters

Four characters stand for three octets. Characters outside the alphabet are passed over. The text
ends with its last character or with padding that completes a group of four; a group that is
neither full nor padded has no octets.
-/

set_option autoImplicit false

namespace RepoAtlas.Text.Base64

/-- The six bits of a character of the alphabet. -/
def value? (c : Char) : Option Nat :=
  if 'A' ≤ c && c ≤ 'Z' then some (c.toNat - 'A'.toNat)
  else if 'a' ≤ c && c ≤ 'z' then some (c.toNat - 'a'.toNat + 26)
  else if c.isDigit then some (c.toNat - '0'.toNat + 52)
  else if c = '+' then some 62
  else if c = '/' then some 63
  else none

/-- Where the reader stands: the octets read so far, last first, how many characters of the group
have been read and which of their bits belong to the next octet, and the padding seen since. -/
structure Reader where
  octets : List UInt8 := []
  filled : Nat := 0
  bits : Nat := 0
  padding : Nat := 0

/-- Takes in six bits. -/
def Reader.take (r : Reader) (value : Nat) : Reader :=
  let push (octet : Nat) : List UInt8 := UInt8.ofNat octet :: r.octets
  match r.filled with
  | 0 => { octets := r.octets, filled := 1, bits := value }
  | 1 => { octets := push (4 * r.bits + value / 16), filled := 2, bits := value % 16 }
  | 2 => { octets := push (16 * r.bits + value / 4), filled := 3, bits := value % 4 }
  | _ => { octets := push (64 * r.bits + value), filled := 0, bits := 0 }

/-- Reads a text to its end or to the padding that completes a group. -/
def Reader.run (r : Reader) : List Char → Option (List UInt8)
  | [] => if r.filled = 0 then some r.octets.reverse else none
  | c :: rest =>
    if c = '=' then
      if 2 ≤ r.filled then
        if 4 ≤ r.filled + r.padding + 1 then some r.octets.reverse
        else Reader.run { r with padding := r.padding + 1 } rest
      else Reader.run r rest
    else
      match value? c with
      | some value => (r.take value).run rest
      | none => Reader.run r rest

/-- The octets that a text writes, if its last group is complete. -/
def decode? (text : List Char) : Option (List UInt8) :=
  Reader.run {} text

end RepoAtlas.Text.Base64
