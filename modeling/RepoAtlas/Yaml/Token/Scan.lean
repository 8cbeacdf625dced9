import RepoAtlas.Yaml.Token.Scalar

/-!
# `RepoAtlas.Yaml.Token.Scan`: cutting a text into tokens

Each step skips blanks and comments, closes the block collections that end here, and takes the
token that the next characters announce. `scan` gives the tokens up to the end of the text or up
to the first fault, since what reads the tokens may fail before it gets there.
-/

set_option autoImplicit false

namespace RepoAtlas.Yaml

namespace Lex

/-! ## Directives and documents -/

/-- Takes a number. -/
def takeNumber : Lex Nat := do
  let digits ← takeWhile Char.isDigit
  if digits.isEmpty then
    refuse
  return digits.foldl (fun n c => 10 * n + (c.toNat - '0'.toNat)) 0

/-- Takes what follows the name of a directive. -/
def takeDirectiveBody (name : String) : Lex Token := do
  if name = "YAML" then
    let _ ← takeWhile (· = ' ')
    let major ← takeNumber
    unless (← peek) = '.' do
      refuse
    forward 1
    let _ ← takeNumber
    unless isSpaceOrEnd (← peek) do
      refuse
    return .version major
  else if name = "TAG" then
    let _ ← takeWhile (· = ' ')
    let handle ← takeHandle
    unless (← peek) = ' ' do
      refuse
    let _ ← takeWhile (· = ' ')
    let start ← takeUri
    unless isSpaceOrEnd (← peek) do
      refuse
    return .tagHandle handle start
  else
    skipLine
    return .directive

/-- Takes a directive. -/
def takeDirective : Lex Token := do
  forward 1
  let name ← takeWhile isNameChar
  if name.isEmpty || !isSpaceOrEnd (← peek) then
    refuse
  let token ← takeDirectiveBody (String.ofList name)
  finishLine
  return token

/-- Ends all block collections, as every separator of documents does. -/
def closeBlocks : Lex Unit := do
  unwind (-1)
  dropKey
  allowKeys false

/-! ## Structure -/

/-- Takes the opening bracket of a flow collection. -/
def takeOpening (token : Token) : Lex Unit := do
  saveKey
  modify fun s => { s with flow := s.flow + 1 }
  allowKeys true
  forward 1
  emit token

/-- Takes the closing bracket of a flow collection. -/
def takeClosing (token : Token) : Lex Unit := do
  dropKey
  modify fun s => { s with flow := s.flow - 1 }
  allowKeys false
  forward 1
  emit token

/-- Takes a comma. -/
def takeFlowEntry : Lex Unit := do
  allowKeys true
  dropKey
  forward 1
  emit .flowEntry

/-- Opens a block collection at this column, if that indents it. -/
def openBlock (token : Token) : Lex Unit := do
  let s ← get
  if s.flow = 0 then
    unless s.keysAllowed do
      refuse
    if ← openIndent s.column then
      emit token

/-- Takes the dash of an item. -/
def takeBlockEntry : Lex Unit := do
  openBlock .blockSequenceStart
  allowKeys true
  dropKey
  forward 1
  emit .blockEntry

/-- Takes the question mark of a key. -/
def takeKey : Lex Unit := do
  openBlock .blockMappingStart
  allowKeys ((← get).flow = 0)
  dropKey
  forward 1
  emit .key

/-- Takes the colon of a value. If the token before it may be a key, it becomes one now, and may
open a block mapping. -/
def takeValue : Lex Unit := do
  let s ← get
  match s.keys.find? (·.level = s.flow) with
  | some key =>
    let opens ← do
      if s.flow = 0 then openIndent key.column else pure false
    -- The token that turned out to be a key stands after its own start, so the tokens open up.
    let start := if opens then #[Token.blockMappingStart, .key] else #[.key]
    modify fun s =>
      let after := s.tokens.extract key.tokens
      { s with
        keys := s.keys.filter (·.level ≠ s.flow)
        tokens := s.tokens.shrink key.tokens ++ start ++ after
        keysAllowed := false }
  | none =>
    openBlock .blockMappingStart
    allowKeys ((← get).flow = 0)
    dropKey
  forward 1
  emit .value

/-! ## Tokens -/

/-- Skips blanks, comments and line breaks. Outside flow collections a key may start on each new
line. -/
def skipToToken : Nat → Lex Unit
  | 0 => return ()
  | fuel + 1 => do
    let s ← get
    if s.index = 0 && s.peek = '\uFEFF' then
      forward 1
    let _ ← takeWhile (· = ' ')
    if (← peek) = '#' then
      skipLine
    let broken ← takeBreak
    unless broken.isEmpty do
      if (← get).flow = 0 then
        allowKeys true
      skipToToken fuel

/-- Whether a plain scalar may start with a character, given the next one. -/
def startsPlain (inFlow : Bool) (c next : Char) : Bool :=
  !(isBlankOrEnd c || "-?:,[]\x7b\x7d#&*!|>'\"%@\x60".toList.contains c) ||
    (!isBlankOrEnd next && (c = '-' || (!inFlow && (c = '?' || c = ':'))))

/-- Takes a scalar, an alias, an anchor or a tag, any of which may start a key. -/
def takeKeyLike (take : Lex Token) : Lex Unit := do
  saveKey
  allowKeys false
  emit (← take)

/-- Takes a block scalar, which is never a key. -/
def takeBlockToken (folded : Bool) : Lex Unit := do
  allowKeys true
  dropKey
  emit (.scalar (← takeBlock folded) false)

/-- Takes the next token. -/
def takeToken : Lex Unit := do
  skipToToken ((← get).left + 1)
  dropStaleKeys
  unwind (← get).column
  let s ← get
  let c := s.peek
  let next := s.peekAt 1
  let inFlow : Bool := s.flow ≠ 0
  if c = endMark then
    closeBlocks
    modify fun s => { s with keys := [] }
    emit .streamEnd
  else if c = '%' && s.column = 0 then
    closeBlocks
    emit (← takeDirective)
  else if (c = '-' || c = '.') && s.column = 0 && s.atSeparator then
    closeBlocks
    forward 3
    emit (if c = '-' then .documentStart else .documentEnd)
  else if c = '[' then takeOpening .flowSequenceStart
  else if c = '\x7b' then takeOpening .flowMappingStart
  else if c = ']' then takeClosing .flowSequenceEnd
  else if c = '\x7d' then takeClosing .flowMappingEnd
  else if c = ',' then takeFlowEntry
  else if c = '-' && isBlankOrEnd next then takeBlockEntry
  else if c = '?' && (inFlow || isBlankOrEnd next) then takeKey
  else if c = ':' && (inFlow || isBlankOrEnd next) then takeValue
  else if c = '*' then takeKeyLike (return .alias (← takeAnchorName))
  else if c = '&' then takeKeyLike (return .anchor (← takeAnchorName))
  else if c = '!' then takeKeyLike takeTag
  else if c = '|' && !inFlow then takeBlockToken false
  else if c = '>' && !inFlow then takeBlockToken true
  else if c = '\'' || c = '"' then takeKeyLike (return .scalar (← takeQuoted c) false)
  else if startsPlain inFlow c next then takeKeyLike (return .scalar (← takePlain) true)
  else refuse

/-- Takes tokens up to the end of the text. -/
def takeTokens : Nat → Lex Unit
  | 0 => return ()
  | fuel + 1 => do
    takeToken
    unless (← get).tokens.back? = some .streamEnd do
      takeTokens fuel

end Lex

/-- Characters that a text may consist of. -/
def isAllowed (c : Char) : Bool :=
  c = '\t' || c = '\n' || c = '\r' || (0x20 ≤ c.toNat && c.toNat ≤ 0x7E) || c.toNat = 0x85 ||
    (0xA0 ≤ c.toNat && c.toNat ≤ 0xFFFD) || 0x10000 ≤ c.toNat

/-- The tokens of a text up to its end or the first fault. Every token but the last takes a
character. -/
def scan (text : List Char) : List Token × Option Fault :=
  match (Lex.takeTokens (text.length + 2)).run { rest := text, size := text.length } with
  | .ok () s => (s.tokens.toList, none)
  | .error fault s => (s.tokens.toList, some fault)

end RepoAtlas.Yaml
