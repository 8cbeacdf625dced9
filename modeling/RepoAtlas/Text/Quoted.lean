import RepoAtlas.Text.Printable

/-!
# `RepoAtlas.Text.Quoted`: texts quoted inside messages

A message shows a text between quotes on one line: single quotes, unless the text holds a single
quote and no double one. Backslashes, the quote in use and characters that are not printable are
written as escapes, so the reader can tell where the text ends.
-/

set_option autoImplicit false

namespace RepoAtlas.Text

/-- A number in base 16, padded with zeros to a width. -/
def hexPadded (width n : Nat) : String :=
  let digits := Nat.toDigits 16 n
  String.ofList (List.replicate (width - digits.length) '0' ++ digits)

/-- One character as it stands between the given quotes. -/
def quoteChar (quote c : Char) : String :=
  if c = quote || c = '\\' then String.ofList ['\\', c]
  else if c = '\n' then "\\n"
  else if c = '\r' then "\\r"
  else if c = '\t' then "\\t"
  else if isPrintable c then String.singleton c
  else if c.toNat < 0x100 then "\\x" ++ hexPadded 2 c.toNat
  else if c.toNat < 0x10000 then "\\u" ++ hexPadded 4 c.toNat
  else "\\U" ++ hexPadded 8 c.toNat

/-- A text between quotes. -/
def quoted (text : String) : String :=
  let quote := if text.toList.contains '\'' && !text.toList.contains '"' then '"' else '\''
  String.singleton quote ++ String.join (text.toList.map (quoteChar quote)) ++
    String.singleton quote

end RepoAtlas.Text
