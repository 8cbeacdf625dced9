import RepoAtlas.Command.Arguments

/-!
# `RepoAtlas.Command.Invocation`: what a command line asks for

The command `detect` prints or writes the graph of a repository; `links list`, `links add` and
`links remove` show and edit its manual links. Verbosity may be asked for at every level, a log
file only before the command. A repository is the current directory unless it is given.
-/

set_option autoImplicit false

namespace RepoAtlas.Command

/-- What to do. -/
inductive Request where
  /-- Survey a repository, and write its graph to a file or print it. -/
  | detect (root : String) (output : Option String) (compact : Bool)
  | listLinks (root : String)
  | addLink (root source target : String)
  | removeLink (root source target : String)
  deriving DecidableEq, Repr

/-- A request, with how much to tell and where to keep it. -/
structure Invocation where
  verbose : Bool
  logFile : Option String
  request : Request
  deriving DecidableEq, Repr

/-- The option that asks for help. -/
def helpOption : OptionForm := { names := ["-h", "--help"], slot := .help }

/-- The option that asks for details. -/
def verboseOption : OptionForm := { names := ["-v", "--verbose"], slot := .verbose }

/-- The options of every grammar. -/
def sharedOptions : List OptionForm := [helpOption, verboseOption]

/-- The grammar of whole command lines. -/
def mainGrammar : Grammar where
  options := sharedOptions ++ [{ names := ["--log-file"], slot := .logFile, takesValue := true }]
  operands := [.subcommand]

/-- The grammar of `detect`. -/
def detectGrammar : Grammar where
  options := sharedOptions ++
    [{ names := ["-o", "--output"], slot := .output, takesValue := true },
     { names := ["--compact"], slot := .compact }]
  operands := [.optional .path]

/-- The grammar of `links`. -/
def linksGrammar : Grammar where
  options := sharedOptions
  operands := [.subcommand]

/-- The grammar of `links list`. -/
def listGrammar : Grammar where
  options := sharedOptions
  operands := [.optional .path]

/-- The grammar of `links add` and `links remove`. -/
def editGrammar : Grammar where
  options := sharedOptions ++ [{ names := ["--path"], slot := .path, takesValue := true }]
  operands := [.required .source, .required .target]

/-- The value that was said last for a slot. -/
def Said.last? (said : Said) (slot : Slot) : Option String :=
  (said.values.reverse.find? (·.1 = slot)).map Prod.snd

/-- Whether anything was said for a slot. -/
def Said.has (said : Said) (slot : Slot) : Bool :=
  (said.last? slot).isSome

/-- The repository that was named, the current directory by default. -/
def Said.root (said : Said) : String :=
  (said.last? .path).getD "."

/-- The request that the words after `links` make, with whether details are asked for and whether
there are words without a meaning. -/
def readLinks (texts : List String) : Except Refusal (Request × Bool × Bool) := do
  let outer ← linksGrammar.read texts
  let finish (inner : Said) (request : Request) : Except Refusal (Request × Bool × Bool) :=
    .ok (request, outer.has .verbose || inner.has .verbose,
      outer.superfluous || inner.superfluous)
  match outer.rest with
  | some ("list" :: rest) =>
    let inner ← listGrammar.read rest
    finish inner (.listLinks inner.root)
  | some ("add" :: rest) =>
    let inner ← editGrammar.read rest
    finish inner (.addLink inner.root ((inner.last? .source).getD "")
      ((inner.last? .target).getD ""))
  | some ("remove" :: rest) =>
    let inner ← editGrammar.read rest
    finish inner (.removeLink inner.root ((inner.last? .source).getD "")
      ((inner.last? .target).getD ""))
  | _ => throw .usage

/-- The request that the words after `detect` make, with whether details are asked for and whether
there are words without a meaning. An empty file name is none. -/
def readDetect (texts : List String) : Except Refusal (Request × Bool × Bool) := do
  let said ← detectGrammar.read texts
  let output := (said.last? .output).filter (· ≠ "")
  return (.detect said.root output (said.has .compact), said.has .verbose, said.superfluous)

/-- What a command line asks for. -/
def Invocation.read (texts : List String) : Except Refusal Invocation := do
  let outer ← mainGrammar.read texts
  let (request, verbose, superfluous) ← match outer.rest with
    | some ("detect" :: rest) => readDetect rest
    | some ("links" :: rest) => readLinks rest
    | _ => throw .usage
  if outer.superfluous || superfluous then throw .usage
  else
    return {
      verbose := outer.has .verbose || verbose
      logFile := outer.last? .logFile
      request := request }

end RepoAtlas.Command
