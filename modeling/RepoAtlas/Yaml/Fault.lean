import RepoAtlas.Number.Decimal
import RepoAtlas.Text.Quoted

/-!
# `RepoAtlas.Yaml.Fault`: why a text has no document

Most texts that are no documents are malformed. A text that is well formed may still say something
that has no value: a number without digits, a date that does not exist.
-/

set_option autoImplicit false

namespace RepoAtlas.Yaml

/-- Why a text has no tokens, no nodes or no values. -/
inductive Fault where
  /-- The text is not YAML, or says something that cannot be built. -/
  | malformed
  /-- Nodes nest too deep. -/
  | tooDeep
  /-- An escape names a code point beyond the last one. -/
  | noSuchCodePoint
  /-- An escape names a number that is not even a machine integer. -/
  | codePointOverflow
  /-- A text tagged as an integer is none in the given base. -/
  | badInteger (base : Nat) (text : String)
  /-- An integer has too many digits. -/
  | integerTooLong (digits : Nat)
  /-- A text tagged as a floating-point number is none. -/
  | badFloat (text : String)
  /-- A base of a sexagesimal number is out of reach. -/
  | baseTooLarge
  /-- A text tagged as a truth value is none. -/
  | badBool (text : String)
  /-- A number without any digit. -/
  | emptyNumber
  /-- A text tagged as a date is none. -/
  | noDate
  /-- A mapping is tagged as a date. -/
  | dateOfMapping
  /-- A part of a date is out of its range. -/
  | dateRange (message : String)
  deriving DecidableEq, Repr

/-- The wording of a fault. -/
def Fault.message : Fault → String
  | .malformed => "the text is not YAML"
  | .tooDeep => "maximum recursion depth exceeded"
  | .noSuchCodePoint => "chr() arg not in range(0x110000)"
  | .codePointOverflow => "Python int too large to convert to C int"
  | .badInteger base text =>
    s!"invalid literal for int() with base {base}: {Text.quoted text}"
  | .integerTooLong digits => Number.digitLimitText s!": value has {digits} digits"
  | .badFloat text => s!"could not convert string to float: {Text.quoted text}"
  | .baseTooLarge => "int too large to convert to float"
  | .badBool text => text
  | .emptyNumber => "string index out of range"
  | .noDate => "'NoneType' object has no attribute 'groupdict'"
  | .dateOfMapping => "expected string or bytes-like object, got 'list'"
  | .dateRange message => message

end RepoAtlas.Yaml
