import RepoAtlas.CodeText
import RepoAtlas.Yaml.Fault

/-!
# `RepoAtlas.Yaml.Token`: the tokens of YAML 1.1

A document is first cut into tokens. Indentation shows as tokens of its own: a block collection
has a start token, which no character of the text stands for, and an end token where the
indentation falls back.
-/

set_option autoImplicit false

namespace RepoAtlas.Yaml

/-- A token. -/
inductive Token where
  /-- `%YAML major.minor`. -/
  | version (major : Nat)
  /-- `%TAG handle start`. -/
  | tagHandle (handle start : String)
  /-- Any other directive. -/
  | directive
  | documentStart
  | documentEnd
  | streamEnd
  | blockSequenceStart
  | blockMappingStart
  | blockEnd
  | flowSequenceStart
  | flowSequenceEnd
  | flowMappingStart
  | flowMappingEnd
  | blockEntry
  | flowEntry
  | key
  | value
  | alias (name : String)
  | anchor (name : String)
  /-- A tag: a handle that a directive explains, unless the tag is verbatim, and the rest. -/
  | tag (handle : Option String) (suffix : String)
  /-- A scalar; a plain one has no quotes and is no block. -/
  | scalar (value : CodeText) (plain : Bool)
  deriving DecidableEq, Repr

end RepoAtlas.Yaml
