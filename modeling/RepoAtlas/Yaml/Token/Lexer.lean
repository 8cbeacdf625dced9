import RepoAtlas.Yaml.Token

/-!
# `RepoAtlas.Yaml.Token.Lexer`: where the lexer stands

The lexer keeps the text that is left, its position, the indentation of the block collections
around it and the number of flow collections around it. A colon can turn the token before it into
a key after the fact; so the lexer remembers, for each level of flow collections, the token that
may turn out to be a simple key. Such a key lies on one line and is at most 1024 characters long.
Lines end in a line feed or in one of the breaks of Unicode; a carriage return is no break.
-/

set_option autoImplicit false

namespace RepoAtlas.Yaml

/-- A token that may turn out to be a key. -/
structure SimpleKey where
  /-- The number of flow collections around it. -/
  level : Nat
  /-- The number of tokens before it. -/
  tokens : Nat
  /-- Whether the text is malformed if it is none. -/
  required : Bool
  index : Nat
  line : Nat
  column : Nat

/-- Where the lexer stands. -/
structure Lexer where
  /-- The text that is left. -/
  rest : List Char
  /-- The number of characters of the whole text. -/
  size : Nat
  /-- The number of characters before the text that is left. -/
  index : Nat := 0
  line : Nat := 0
  column : Nat := 0
  /-- The number of flow collections around it. -/
  flow : Nat := 0
  /-- The indentation of the innermost block collection; none for -1. -/
  indent : Int := -1
  /-- The indentations around that one. -/
  indents : List Int := []
  /-- Whether a simple key may start here. -/
  keysAllowed : Bool := true
  /-- The tokens that may turn out to be keys. -/
  keys : List SimpleKey := []
  /-- The tokens so far. -/
  tokens : Array Token := #[]

/-- A step of the lexer. After a fault the state is the one before the fault. -/
abbrev Lex := EStateM Fault Lexer

/-- Stands for the end of the text, where it is not. -/
def endMark : Char := '\x00'

/-- Line breaks. -/
def isBreak (c : Char) : Bool :=
  c = '\n' || c = '\u0085' || c = '\u2028' || c = '\u2029'

/-- Line breaks and the end of the text. -/
def isBreakOrEnd (c : Char) : Bool :=
  c = endMark || isBreak c

/-- Spaces, line breaks and the end of the text. -/
def isSpaceOrEnd (c : Char) : Bool :=
  c = ' ' || isBreakOrEnd c

/-- Spaces, tabs, line breaks and the end of the text. -/
def isBlankOrEnd (c : Char) : Bool :=
  c = '\t' || isSpaceOrEnd c

/-- What a line break means inside a scalar: the breaks of lines proper are all the same. -/
def breakMeaning (c : Char) : Char :=
  if c = '\n' || c = '\u0085' then '\n' else c

namespace Lexer

/-- The character `n` further on. -/
def peekAt (s : Lexer) (n : Nat) : Char := (s.rest[n]?).getD endMark

/-- The next character. -/
def peek (s : Lexer) : Char := s.peekAt 0

/-- The lexer after one more character. -/
def forwardOne (s : Lexer) : Lexer :=
  match s.rest with
  | [] => s
  | c :: rest =>
    if isBreak c then { s with rest, index := s.index + 1, line := s.line + 1, column := 0 }
    else
      { s with rest, index := s.index + 1
               column := if c = '\uFEFF' then s.column else s.column + 1 }

/-- The lexer after `n` more characters. -/
def forward (s : Lexer) (n : Nat) : Lexer :=
  n.repeat forwardOne s

/-- The number of characters that are left. -/
def left (s : Lexer) : Nat := s.size - s.index

/-- The number of characters of a class at the front. -/
def spanLength (s : Lexer) (ofClass : Char → Bool) : Nat :=
  (s.rest.takeWhile ofClass).length

/-- Whether the text goes on with a document separator. -/
def atSeparator (s : Lexer) : Bool :=
  (s.rest.take 3 = ['-', '-', '-'] || s.rest.take 3 = ['.', '.', '.']) && isBlankOrEnd (s.peekAt 3)

end Lexer

namespace Lex

/-- The next character. -/
def peek : Lex Char := return (← get).peek

/-- The character `n` further on. -/
def peekAt (n : Nat) : Lex Char := return (← get).peekAt n

/-- Goes on by `n` characters. -/
def forward (n : Nat) : Lex Unit := modify (·.forward n)

/-- Refuses the text. -/
def refuse {α : Type} : Lex α := throw .malformed

/-- Takes the characters of a class at the front. -/
def takeWhile (ofClass : Char → Bool) : Lex (List Char) := do
  let taken := (← get).rest.takeWhile ofClass
  forward taken.length
  return taken

/-- Adds a token. -/
def emit (token : Token) : Lex Unit :=
  modify fun s => { s with tokens := s.tokens.push token }

/-- Takes a line break, if there is one, and gives its meaning. -/
def takeBreak : Lex (List Char) := do
  let c ← peek
  if isBreak c then
    forward 1
    return [breakMeaning c]
  else
    return []

/-- Goes on to the end of the line. -/
def skipLine : Lex Unit := do
  let _ ← takeWhile (!isBreakOrEnd ·)

/-- Goes on to the next line; only blanks and a comment may be left on this one. -/
def finishLine : Lex Unit := do
  let _ ← takeWhile (· = ' ')
  if (← peek) = '#' then
    skipLine
  unless isBreakOrEnd (← peek) do
    refuse
  let _ ← takeBreak

/-! ## Simple keys -/

/-- Forgets the tokens that can no longer be keys: those on earlier lines and those too far
back. -/
def dropStaleKeys : Lex Unit := do
  let s ← get
  let stale (key : SimpleKey) : Bool := key.line ≠ s.line || 1024 < s.index - key.index
  if s.keys.any fun key => stale key && key.required then
    refuse
  set { s with keys := s.keys.filter (!stale ·) }

/-- Forgets the possible key of the innermost level. -/
def dropKey : Lex Unit := do
  let s ← get
  if s.keys.any fun key => key.level = s.flow && key.required then
    refuse
  set { s with keys := s.keys.filter (·.level ≠ s.flow) }

/-- Remembers that the next token may turn out to be a key. -/
def saveKey : Lex Unit := do
  if (← get).keysAllowed then
    dropKey
    modify fun s => { s with keys := s.keys ++ [{
      level := s.flow
      tokens := s.tokens.size
      required := s.flow = 0 && s.indent = s.column
      index := s.index
      line := s.line
      column := s.column }] }

/-- Says whether a simple key may start at the next token. -/
def allowKeys (allowed : Bool) : Lex Unit :=
  modify fun s => { s with keysAllowed := allowed }

/-! ## Indentation -/

/-- Ends the block collections that are indented more than a column. -/
def unwindFrom (column : Int) : List Int → Lex Unit
  | [] => pure ()
  | outer :: indents => do
    if column < (← get).indent then
      modify fun s => { s with indent := outer, indents := indents, tokens := s.tokens.push .blockEnd }
      unwindFrom column indents

/-- Ends the block collections that are indented more than a column; inside a flow collection
indentation means nothing. -/
def unwind (column : Int) : Lex Unit := do
  let s ← get
  if s.flow = 0 then
    unwindFrom column s.indents

/-- Opens a deeper indentation, if the column is one. -/
def openIndent (column : Nat) : Lex Bool := do
  let s ← get
  if s.indent < column then
    set { s with indent := (column : Int), indents := s.indent :: s.indents }
    return true
  else
    return false

end Lex

end RepoAtlas.Yaml
