import RepoAtlas.Text.Utf8
import RepoAtlas.Yaml.Token.Lexer

/-!
# `RepoAtlas.Yaml.Token.Scalar`: scalars, names and tags

Scalars are quoted, plain or blocks. In all of them a single line break between lines counts as a
space and further breaks are kept, each style with its own view of what the blanks around breaks
mean; literal blocks keep every break.
-/

set_option autoImplicit false

namespace RepoAtlas.Yaml.Lex

/-! ## Names and tags -/

/-- Characters of anchors, handles and directives. -/
def isNameChar (c : Char) : Bool :=
  c.isAlphanum || c = '-' || c = '_'

/-- Hexadecimal digits. -/
def isHexDigit (c : Char) : Bool :=
  c.isDigit || ('a' ≤ c && c ≤ 'f') || ('A' ≤ c && c ≤ 'F')

/-- The number that hexadecimal digits write. -/
def ofHexDigits (digits : List Char) : Nat :=
  digits.foldl (fun n c =>
    16 * n + (if c.isDigit then c.toNat - '0'.toNat else c.toLower.toNat - 'a'.toNat + 10)) 0

/-- Takes the name of an anchor or an alias, after its indicator. -/
def takeAnchorName : Lex String := do
  forward 1
  let name ← takeWhile isNameChar
  if name.isEmpty then
    refuse
  let c ← peek
  unless isBlankOrEnd c || "?:,]\x7d%@\x60".toList.contains c do
    refuse
  return String.ofList name

/-- Takes a tag handle: one or two exclamation marks, in the second case around a name. A lone one
is a handle only before a space. -/
def takeHandle : Lex String := do
  unless (← peek) = '!' do
    refuse
  let s ← get
  if s.peekAt 1 = ' ' then
    forward 1
    return "!"
  let name := (s.rest.drop 1).takeWhile isNameChar
  unless s.peekAt (1 + name.length) = '!' do
    refuse
  forward (name.length + 2)
  return String.ofList ('!' :: name ++ ['!'])

/-- Characters of a tag that stand for themselves. -/
def isUriChar (c : Char) : Bool :=
  c.isAlphanum || "-;/?:@&=+$,_.!~*'()[]".toList.contains c

/-- Takes octets written as a percent sign and two hexadecimal digits. -/
def takeEscapes : Nat → Lex (List UInt8)
  | 0 => return []
  | fuel + 1 => do
    if (← peek) ≠ '%' then
      return []
    let digits := (← get).rest.drop 1 |>.take 2
    unless digits.length = 2 && digits.all isHexDigit do
      refuse
    forward 3
    return UInt8.ofNat (ofHexDigits digits) :: (← takeEscapes fuel)

/-- Takes the rest of a tag, given what has been taken before. -/
def takeUriAfter : Nat → List Char → Lex (List Char)
  | 0, taken => return taken
  | fuel + 1, taken => do
    let direct ← takeWhile isUriChar
    if (← peek) = '%' then
      let octets ← takeEscapes ((← get).left)
      match Text.Utf8.decode? octets with
      | none => refuse
      | some text => takeUriAfter fuel (taken ++ direct ++ text)
    else
      return taken ++ direct

/-- Takes a text of tag characters, which is not empty. -/
def takeUri : Lex String := do
  let s ← get
  unless isUriChar s.peek || s.peek = '%' do
    refuse
  return String.ofList (← takeUriAfter (s.left + 1) [])

/-- Whether an exclamation mark stands in a tag after its first character. -/
def hasHandle (s : Lexer) : Bool :=
  (s.rest.drop 1).takeWhile (!isSpaceOrEnd ·) |>.contains '!'

/-- Takes a tag. -/
def takeTag : Lex Token := do
  let s ← get
  let next := s.peekAt 1
  let token ←
    if next = '<' then do
      forward 2
      let uri ← takeUri
      unless (← peek) = '>' do
        refuse
      forward 1
      pure (Token.tag none uri)
    else if isBlankOrEnd next then do
      forward 1
      pure (Token.tag none "!")
    else if hasHandle s then do
      let handle ← takeHandle
      pure (Token.tag (some handle) (← takeUri))
    else do
      forward 1
      pure (Token.tag (some "!") (← takeUri))
  unless isSpaceOrEnd (← peek) do
    refuse
  return token

/-! ## Texts under way -/

/-- Puts a text after one that is kept last character first. -/
def onto {α : Type} (taken text : List α) : List α :=
  text.reverseAux taken

/-! ## Quoted scalars -/

/-- The character that a letter after a backslash stands for. -/
def escapes : List (Char × Char) :=
  [('0', '\x00'), ('a', '\x07'), ('b', '\x08'), ('t', '\t'), ('\t', '\t'), ('n', '\n'),
   ('v', '\x0b'), ('f', '\x0c'), ('r', '\x0d'), ('e', '\x1b'), (' ', ' '), ('"', '"'),
   ('\\', '\\'), ('/', '/'), ('N', '\u0085'), ('_', '\u00a0'), ('L', '\u2028'), ('P', '\u2029')]

/-- The number of hexadecimal digits after an escape letter. -/
def escapeLengths : List (Char × Nat) := [('x', 2), ('u', 4), ('U', 8)]

/-- The code point with a code. -/
def ofCode (code : Nat) : Except Fault CodePoint :=
  if 0x7FFFFFFF < code then .error .codePointOverflow
  else if 0x10FFFF < code then .error .noSuchCodePoint
  else .ok (CodePoint.ofCode code)

/-- Takes the breaks of empty lines inside a quoted scalar. -/
def takeQuotedBreaks : Nat → Lex (List Char)
  | 0 => return []
  | fuel + 1 => do
    if (← get).atSeparator then
      refuse
    let _ ← takeWhile fun c => c = ' ' || c = '\t'
    if isBreak (← peek) then
      let here ← takeBreak
      return here ++ (← takeQuotedBreaks fuel)
    else
      return []

/-- Takes the blanks and breaks between the words of a quoted scalar. -/
def takeQuotedBlanks : Lex (List Char) := do
  let blanks ← takeWhile fun c => c = ' ' || c = '\t'
  let c ← peek
  if c = endMark then
    refuse
  else if isBreak c then
    let first ← takeBreak
    let others ← takeQuotedBreaks ((← get).left + 1)
    if first ≠ ['\n'] then
      return first ++ others
    else if others.isEmpty then
      return [' ']
    else
      return others
  else
    return blanks

/-- Takes what a backslash starts inside double quotes. Escapes are taken one by one, so that the
halves of a pair stay apart. -/
def takeEscape : Lex (List CodePoint) := do
  forward 1
  let c ← peek
  if let some meant := escapes.lookup c then
    forward 1
    return [.char meant]
  if let some length := escapeLengths.lookup c then
    forward 1
    let digits := (← get).rest.take length
    unless digits.length = length && digits.all isHexDigit do
      refuse
    match ofCode (ofHexDigits digits) with
    | .error fault => throw fault
    | .ok meant =>
      forward length
      return [meant]
  if isBreak c then
    let _ ← takeBreak
    return (← takeQuotedBreaks ((← get).left + 1)).map .char
  else
    refuse

/-- Characters that end a word of a quoted scalar. -/
def endsQuotedWord (c : Char) : Bool :=
  isBlankOrEnd c || c = '\'' || c = '"' || c = '\\'

/-- Takes words of a quoted scalar up to a blank, a break or the closing quote, and puts them after
what has been taken before. -/
def takeQuotedWords (quote : Char) : Nat → List CodePoint → Lex (List CodePoint)
  | 0, taken => return taken
  | fuel + 1, taken => do
    let taken := onto taken ((← takeWhile (!endsQuotedWord ·)).map .char)
    let c ← peek
    if quote = '\'' && c = '\'' && (← peekAt 1) = '\'' then
      forward 2
      takeQuotedWords quote fuel (.char '\'' :: taken)
    else if (quote = '"' && c = '\'') || (quote = '\'' && (c = '"' || c = '\\')) then
      forward 1
      takeQuotedWords quote fuel (.char c :: taken)
    else if quote = '"' && c = '\\' then
      let meant ← takeEscape
      takeQuotedWords quote fuel (onto taken meant)
    else
      return taken

/-- Takes a quoted scalar up to its closing quote, and puts it after what has been taken before. -/
def takeQuotedAfter (quote : Char) : Nat → List CodePoint → Lex (List CodePoint)
  | 0, taken => return taken
  | fuel + 1, taken => do
    if (← peek) = quote then
      forward 1
      return taken
    let blanks ← takeQuotedBlanks
    let taken ← takeQuotedWords quote ((← get).left + 1) (onto taken (blanks.map .char))
    takeQuotedAfter quote fuel taken

/-- Takes a quoted scalar. -/
def takeQuoted (quote : Char) : Lex CodeText := do
  forward 1
  let fuel := (← get).left + 1
  let first ← takeQuotedWords quote fuel []
  return ⟨(← takeQuotedAfter quote fuel first).reverse⟩

/-! ## Plain scalars -/

/-- The number of characters up to the end of a word of a plain scalar: a blank, a colon before a
blank, and inside flow collections the characters that structure them. -/
def plainWordLength (inFlow : Bool) : List Char → Nat
  | [] => 0
  | c :: rest =>
    let next := rest.head?.getD endMark
    if isBlankOrEnd c ||
        (c = ':' && (isBlankOrEnd next || (inFlow && ",[]\x7b\x7d".toList.contains next))) ||
        (inFlow && ",?[]\x7b\x7d".toList.contains c) then 0
    else plainWordLength inFlow rest + 1

/-- Takes the spaces and breaks of further lines of a plain scalar; none at a document
separator. -/
def takePlainBreaks : Nat → Lex (Option (List Char))
  | 0 => return some []
  | fuel + 1 => do
    let _ ← takeWhile (· = ' ')
    if isBreak (← peek) then
      let here ← takeBreak
      if (← get).atSeparator then
        return none
      return (← takePlainBreaks fuel).map (here ++ ·)
    else
      return some []

/-- Takes the blanks between two words of a plain scalar. It is over when there are none. -/
def takePlainBlanks : Lex (List Char) := do
  let spaces ← takeWhile (· = ' ')
  if isBreak (← peek) then
    let first ← takeBreak
    allowKeys true
    if (← get).atSeparator then
      return []
    match ← takePlainBreaks ((← get).left + 1) with
    | none => return []
    | some others =>
      if first ≠ ['\n'] then return first ++ others
      else if others.isEmpty then return [' ']
      else return others
  else
    return spaces

/-- Takes words of a plain scalar, and puts them after what has been taken before and the blanks
after it. -/
def takePlainAfter (indent : Int) : Nat → List Char → List Char → Lex (List Char)
  | 0, taken, _ => return taken
  | fuel + 1, taken, blanks => do
    let s ← get
    let inFlow : Bool := s.flow ≠ 0
    let length := plainWordLength inFlow s.rest
    if s.peek = '#' || length = 0 then
      return taken
    allowKeys false
    let word := s.rest.take length
    forward length
    let taken := onto (onto taken blanks) word
    let blanks ← takePlainBlanks
    let s ← get
    if blanks.isEmpty || s.peek = '#' || (!inFlow && (s.column : Int) < indent) then
      return taken
    takePlainAfter indent fuel taken blanks

/-- Takes a plain scalar. -/
def takePlain : Lex String := do
  let s ← get
  return String.ofList (← takePlainAfter (s.indent + 1) (s.left + 1) [] []).reverse

/-! ## Block scalars -/

/-- Which of the breaks at its end a block scalar keeps. -/
inductive Chomping where
  | strip
  | clip
  | keep
  deriving DecidableEq

/-- The chomping that an indicator asks for. -/
def chomping? : Char → Option Chomping
  | '+' => some .keep
  | '-' => some .strip
  | _ => none

/-- Takes an indentation indicator; zero is none. -/
def takeIncrement : Lex (Option Nat) := do
  let c ← peek
  if c.isDigit then
    if c = '0' then
      refuse
    forward 1
    return some (c.toNat - '0'.toNat)
  else
    return none

/-- Takes a chomping indicator. -/
def takeChomping : Lex (Option Chomping) := do
  match chomping? (← peek) with
  | some c =>
    forward 1
    return some c
  | none => return none

/-- Takes the indicators of a block scalar, in either order. -/
def takeIndicators : Lex (Chomping × Option Nat) := do
  let indicators ← do
    match ← takeChomping with
    | some c => pure (c, ← takeIncrement)
    | none =>
      match ← takeIncrement with
      | some n => pure ((← takeChomping).getD .clip, some n)
      | none => pure (.clip, none)
  unless isSpaceOrEnd (← peek) do
    refuse
  return indicators

/-- The breaks of empty lines at the front of a text, with the number of characters up to the first
line that is not empty; up to the indentation spaces are skipped. -/
def emptyLines (indent : Int) : Nat → List Char → Nat × List Char
  | _, [] => (0, [])
  | column, c :: rest =>
    if c = ' ' && (column : Int) < indent then
      let (count, breaks) := emptyLines indent (column + 1) rest
      (count + 1, breaks)
    else if isBreak c then
      let (count, breaks) := emptyLines indent 0 rest
      (count + 1, breakMeaning c :: breaks)
    else (0, [])

/-- Takes empty lines. -/
def takeEmptyLines (indent : Int) : Lex (List Char) := do
  let s ← get
  let (count, breaks) := emptyLines indent s.column s.rest
  forward count
  return breaks

/-- The deepest column that spaces reach at the front of a text, up to the first line that is not
empty, with the breaks on the way. -/
def deepestSpace : Nat → List Char → Nat × List Char
  | _, [] => (0, [])
  | column, c :: rest =>
    if c = ' ' then
      let (deepest, breaks) := deepestSpace (column + 1) rest
      (max (column + 1) deepest, breaks)
    else if isBreak c then
      let (deepest, breaks) := deepestSpace 0 rest
      (deepest, breakMeaning c :: breaks)
    else (0, [])

/-- Takes the lines of a block scalar, and puts them after what has been taken before and the breaks
of the empty lines after it. The break of the last line and the breaks after it come apart. -/
def takeBlockLines (folded : Bool) (indent : Int) :
    Nat → List Char → List Char → List Char → Lex (List Char × List Char × List Char)
  | 0, taken, last, breaks => return (taken, last, breaks)
  | fuel + 1, taken, last, breaks => do
    let s ← get
    if (s.column : Int) ≠ indent || s.peek = endMark then
      return (taken, last, breaks)
    let leadingText := s.peek ≠ ' ' && s.peek ≠ '\t'
    let line ← takeWhile (!isBreakOrEnd ·)
    let taken := onto (onto taken breaks) line
    let last ← takeBreak
    let breaks ← takeEmptyLines indent
    let s ← get
    if (s.column : Int) ≠ indent || s.peek = endMark then
      return (taken, last, breaks)
    let taken :=
      if folded && last = ['\n'] && leadingText && s.peek ≠ ' ' && s.peek ≠ '\t' then
        if breaks.isEmpty then ' ' :: taken else taken
      else onto taken last
    takeBlockLines folded indent fuel taken last breaks

/-- Takes a block scalar. -/
def takeBlock (folded : Bool) : Lex String := do
  forward 1
  let (chomping, increment) ← takeIndicators
  finishLine
  let s ← get
  let least := max 1 (s.indent + 1)
  let (indent, breaks) ← do
    match increment with
    | some n =>
      let indent := least + (n : Int) - 1
      pure (indent, ← takeEmptyLines indent)
    | none =>
      let (deepest, breaks) := deepestSpace s.column s.rest
      forward (s.spanLength fun c => c = ' ' || isBreak c)
      pure (max least (deepest : Int), breaks)
  let (taken, last, breaks) ←
    takeBlockLines folded indent ((← get).left + 1) [] [] breaks
  let taken := if chomping = .strip then taken else onto taken last
  return String.ofList (if chomping = .keep then onto taken breaks else taken).reverse

end RepoAtlas.Yaml.Lex
