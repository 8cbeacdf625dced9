import RepoAtlas.Text.Digit

/-!
# `RepoAtlas.Command.Arguments`: reading command lines

A grammar has options, which start with a dash and may take a value, and operands. The value of an
option follows it, or is attached: after `=`, or directly after a one-letter option. Long options
may be shortened as long as they stay unambiguous; one-letter options without value may be joined.
After `--` everything is an operand. An operand may be the name of another grammar, and takes all
words after it.

Words are classified before anything is done with them, so an ambiguous option is refused even
after a request for help.
-/

set_option autoImplicit false

namespace RepoAtlas.Command

/-- What a command line says something about. -/
inductive Slot where
  | help
  | verbose
  | logFile
  | output
  | compact
  | path
  | source
  | target
  deriving DecidableEq, Repr

/-- An option with its names. -/
structure OptionForm where
  names : List String
  slot : Slot
  takesValue : Bool := false
  deriving DecidableEq, Repr

/-- An operand. -/
inductive Operand where
  | required (slot : Slot)
  | optional (slot : Slot)
  /-- The name of another grammar and all words after it. -/
  | subcommand
  deriving DecidableEq, Repr

/-- What a command line may look like. -/
structure Grammar where
  options : List OptionForm
  operands : List Operand
  deriving DecidableEq, Repr

/-- Why a command line is not carried out. -/
inductive Refusal where
  /-- It does not fit the grammar. -/
  | usage
  /-- It asks for help. -/
  | help
  deriving DecidableEq, Repr

/-- A text attached to an option. -/
structure Attached where
  /-- Whether an equals sign stands before the text. -/
  afterSign : Bool
  text : List Char
  deriving DecidableEq, Repr

/-- An option as it is used. -/
structure Use where
  option : OptionForm
  /-- Whether it is used by a one-letter name. -/
  isShort : Bool
  attached : Option Attached := none
  deriving DecidableEq, Repr

/-- A word of a command line. -/
inductive Word where
  | operand (text : String)
  | separator
  | option (use : Use)
  /-- A word that looks like an option and is none. -/
  | unknown (text : String)
  deriving DecidableEq, Repr

/-- The option with a name. -/
def Grammar.option? (grammar : Grammar) (name : String) : Option OptionForm :=
  grammar.options.find? (·.names.contains name)

/-- All names of options with their options. -/
def Grammar.names (grammar : Grammar) : List (String × OptionForm) :=
  grammar.options.flatMap fun option => option.names.map fun name => (name, option)

/-- Whether a name has one letter and one dash. -/
def isShortName (name : String) : Bool :=
  match name.toList with
  | '-' :: c :: _ => c ≠ '-'
  | _ => false

/-- A word cut at its first equals sign. -/
def cutAtSign (word : List Char) : List Char × Option Attached :=
  let name := word.takeWhile (· ≠ '=')
  match word.drop name.length with
  | _ :: text => (name, some ⟨true, text⟩)
  | [] => (name, none)

/-- The options that a word with two dashes may shorten. -/
def Grammar.shortenedLong (grammar : Grammar) (word : List Char) : List Use :=
  let (start, attached) := cutAtSign word
  (grammar.names.filter fun (name, _) => start.isPrefixOf name.toList).map fun (name, option) =>
    ⟨option, isShortName name, attached⟩

/-- The options that a word with one dash may stand for: one letter with a text attached, or the
start of a name. -/
def Grammar.shortenedShort (grammar : Grammar) (word : List Char) : List Use :=
  grammar.names.filterMap fun (name, option) =>
    if name.toList = word.take 2 then some ⟨option, true, some ⟨false, word.drop 2⟩⟩
    else if word.isPrefixOf name.toList then some ⟨option, isShortName name, none⟩
    else none

/-- A digit of any script. -/
def isAnyDigit (c : Char) : Bool := (Text.toAsciiDigit c).isDigit

/-- Whether a word is a negative number, possibly with a line feed after it. -/
def isNegativeNumber (word : List Char) : Bool :=
  match word with
  | '-' :: number =>
    let number := if number.getLast? = some '\n' then number.dropLast else number
    match number.dropWhile isAnyDigit with
    | [] => !number.isEmpty
    | '.' :: fraction => !fraction.isEmpty && fraction.all isAnyDigit
    | _ => false
  | _ => false

/-- The kind of a word before a separator. -/
def Grammar.classify (grammar : Grammar) (text : String) : Except Refusal Word :=
  let word := text.toList
  match word with
  | '-' :: second :: _ =>
    match grammar.option? text with
    | some option => .ok (.option ⟨option, isShortName text, none⟩)
    | none =>
      let (name, attached) := cutAtSign word
      match attached, grammar.option? (String.ofList name) with
      | some attached, some option =>
        .ok (.option ⟨option, isShortName (String.ofList name), some attached⟩)
      | _, _ =>
        match if second = '-' then grammar.shortenedLong word else grammar.shortenedShort word with
        | [use] => .ok (.option use)
        | _ :: _ :: _ => .error .usage
        | [] =>
          if isNegativeNumber word || word.contains ' ' then .ok (.operand text)
          else .ok (.unknown text)
  | _ => .ok (.operand text)

/-- The words of a command line. -/
def Grammar.words (grammar : Grammar) : List String → Except Refusal (List Word)
  | [] => .ok []
  | "--" :: rest => .ok (.separator :: rest.map .operand)
  | text :: rest => do
    let word ← grammar.classify text
    return word :: (← grammar.words rest)

/-- What a command line says, read against a grammar. -/
structure Said where
  /-- Slots with their values, in order; an option without value has an empty one. -/
  values : List (Slot × String) := []
  /-- The name of another grammar and the words after it. -/
  rest : Option (List String) := none
  /-- Whether there are words without a meaning. -/
  superfluous : Bool := false
  deriving DecidableEq, Repr

/-- Says a value of a slot; asking for help ends the reading. -/
def Said.say (said : Said) (slot : Slot) (value : String) : Except Refusal Said :=
  if slot = .help then .error .help
  else .ok { said with values := said.values ++ [(slot, value)] }

/-- The text of a word. -/
def Word.text? : Word → Option String
  | .operand text => some text
  | .separator => some "--"
  | _ => none

/-- Words without a separator at their front. -/
def dropSeparator : List Word → List Word
  | .separator :: rest => rest
  | words => words

/-- One operand with separators around it, and the words after it. Later words that look like the
separator are operands; such a word stands for itself directly after the separator and for an
empty text anywhere else. -/
def takeOperand? (words : List Word) : Option (String × List Word) :=
  match words with
  | .separator :: .operand text :: rest => some (text, dropSeparator rest)
  | .operand text :: rest => some (if text = "--" then "" else text, dropSeparator rest)
  | _ => none

/-- The words before an operand that is the name of another grammar cannot be told apart from the
name itself: a separator there is taken for the name. -/
def takeSubcommand? (texts : List String) (words : List Word) : Option (List String) :=
  match dropSeparator words with
  | .operand _ :: _ => some (texts.drop (texts.length - words.length))
  | _ => none

/-- Fills as many operands as possible, in order, and gives those that are left and the words after
them. The texts of all words are given for an operand that takes them all. -/
def fillOperands (texts : List String) :
    List Operand → List Word → Said → Except Refusal (List Operand × List Word × Said)
  | [], words, said => .ok ([], words, said)
  | .required slot :: operands, words, said =>
    match takeOperand? words with
    | some (text, rest) => do fillOperands texts operands rest (← said.say slot text)
    | none => .ok (.required slot :: operands, words, said)
  | .optional slot :: operands, words, said =>
    match takeOperand? words with
    | some (text, rest) => do fillOperands texts operands rest (← said.say slot text)
    | none => fillOperands texts operands (dropSeparator words) said
  | .subcommand :: operands, words, said =>
    match takeSubcommand? texts words with
    | some rest => .ok (operands, [], { said with rest := some rest })
    | none => .ok (.subcommand :: operands, words, said)

/-- Reads options that are joined in one word, given those read before. What is attached to the last
one is its value, else the next word is. The result tells whether something has no meaning. -/
def readUse (grammar : Grammar) :
    (fuel : Nat) → Use → List Word → List (Slot × String) →
      Except Refusal (List (Slot × String) × List Word × Bool)
  | 0, _, _, _ => .error .usage
  | fuel + 1, use, words, before =>
    let done (value : String) := before ++ [(use.option.slot, value)]
    match use.option.takesValue, use.attached with
    | true, some attached => .ok (done (String.ofList attached.text), words, false)
    | true, none =>
      match words with
      | .operand text :: rest => .ok (done text, rest, false)
      | _ => .error .usage
    | false, none => .ok (done "", words, false)
    | false, some attached =>
      match attached.text with
      | [] => .error .usage
      | letter :: text =>
        -- Further letters are further options, but a long option has none.
        if !use.isShort || attached.afterSign || letter = '-' then .error .usage
        else
          match grammar.option? (String.ofList ['-', letter]) with
          | none => .ok (done "", words, true)
          | some option =>
            let attached := match text with
              | [] => none
              | '=' :: value => some ⟨true, value⟩
              | _ => some ⟨false, text⟩
            readUse grammar fuel ⟨option, true, attached⟩ words (done "")

/-- Whether a word is an option or looks like one. -/
def Word.isOption : Word → Bool
  | .option _ | .unknown _ => true
  | _ => false

/-- Reads words against a grammar, given the operands that are left. -/
def readWords (grammar : Grammar) (texts : List String) :
    (fuel : Nat) → List Operand → List Word → Said → Except Refusal (List Operand × Said)
  | 0, operands, _, said => .ok (operands, said)
  | fuel + 1, operands, words, said =>
    match words with
    | .unknown _ :: rest =>
      readWords grammar texts fuel operands rest { said with superfluous := true }
    | .option use :: rest => do
      let length := (use.attached.map (·.text.length)).getD 0
      let (values, rest, superfluous) ← readUse grammar (length + 1) use rest []
      let said ← values.foldlM (fun said (slot, value) => said.say slot value) said
      readWords grammar texts fuel operands rest
        { said with superfluous := said.superfluous || superfluous }
    | _ => do
      let (operands, rest, said) ← fillOperands texts operands words said
      -- Words that no operand takes are only superfluous; options after them still count.
      if !words.any Word.isOption then
        return (operands, { said with superfluous := said.superfluous || !rest.isEmpty })
      else if rest.length < words.length then
        readWords grammar texts fuel operands rest said
      else
        readWords grammar texts fuel operands (words.dropWhile fun word => !word.isOption)
          { said with superfluous := true }

/-- Whether an operand may be left out. -/
def Operand.isOptional : Operand → Bool
  | .optional _ => true
  | _ => false

/-- Reads a command line against a grammar. Operands that must be there may not be left out. -/
def Grammar.read (grammar : Grammar) (texts : List String) : Except Refusal Said := do
  let words ← grammar.words texts
  let (left, said) ← readWords grammar texts (2 * words.length + 2) grammar.operands words {}
  if left.all Operand.isOptional then return said else throw .usage

end RepoAtlas.Command
