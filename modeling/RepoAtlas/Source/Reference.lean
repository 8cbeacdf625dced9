import RepoAtlas.OrderedSet
import RepoAtlas.Text.Blank
import RepoAtlas.Text.Pattern

/-!
# `RepoAtlas.Source.Reference`: references to other modules

A reference is a quoted specifier that follows an import statement, a `require` call or a dynamic
import. Each of these is a form: a keyword, a pattern for what stands between the keyword and the
first quote, the specifier up to the next quote, and for calls the closing parenthesis. A form is
looked for from left to right and matches never overlap. Since nothing between keyword and
specifier may be a quote, a match that starts at a given place is unique.

References are sorted by form, then by position, into relative ones, which start with a dot, and
packages, which are known by the part of the specifier before the first slash; modules built into
the host are neither.
-/

set_option autoImplicit false

namespace RepoAtlas.Source

open RepoAtlas.Text

/-- The two quotes; they need not agree. -/
def isQuote (c : Char) : Bool :=
  c = '\'' || c = '"'

/-- Characters of an import clause: neither quote, semicolon nor line feed. -/
def isClauseChar (c : Char) : Bool :=
  !(isQuote c || c = ';' || c = '\n')

/-- A form that references take. -/
structure Form where
  /-- The text that a reference starts with. -/
  keyword : String
  /-- What may stand between the keyword and the first quote. -/
  leads : List Pattern
  /-- Whether a closing parenthesis must follow the specifier. -/
  closed : Bool

/-- A blank, then any number of blanks. -/
def blanks : Pattern := Pattern.atLeastOne isBlank

/-- `import "specifier"` and `import clause from "specifier"`. -/
def importStatement : Form where
  keyword := "import"
  leads := [blanks, blanks ++ Pattern.atLeastOne isClauseChar ++ blanks ++ Pattern.literal "from" ++ blanks]
  closed := false

/-- `require("specifier")`. -/
def requireCall : Form where
  keyword := "require("
  leads := [[.many isBlank]]
  closed := true

/-- `import("specifier")`. -/
def dynamicImport : Form where
  keyword := "import("
  leads := [[.many isBlank]]
  closed := true

/-- The forms in the order in which their references are reported. -/
def forms : List Form := [importStatement, requireCall, dynamicImport]

/-- Runs the text after a keyword through the leads up to the first quote; the result is the
number of characters before that quote and the text after it. -/
def readLead (leads : List Pattern) : List Pattern.Live → Nat → List Char → Option (Nat × List Char)
  | _, _, [] => none
  | lives, count, c :: rest =>
    if isQuote c then
      if lives.any Pattern.accepting then some (count, rest) else none
    else
      let lives := leads.zipWith (Pattern.step c false) lives
      if lives.any Pattern.alive then readLead leads lives (count + 1) rest else none

/-- A match at the front of a text: the specifier, and the length of the match. -/
def Form.matchFront (form : Form) (text : List Char) : Option (List Char × Nat) :=
  let keyword := form.keyword.toList
  if keyword.isPrefixOf text then do
    let (lead, quoted) ←
      readLead form.leads (form.leads.map (Pattern.start true)) 0 (text.drop keyword.length)
    let specifier := quoted.takeWhile (!isQuote ·)
    let length := keyword.length + lead + 1 + specifier.length + 1
    match quoted.drop specifier.length with
    | [] => none
    | _ :: after =>
      if specifier.isEmpty then none
      else if form.closed then
        let gap := after.takeWhile isBlank
        if (after.drop gap.length).head? = some ')' then some (specifier, length + gap.length + 1)
        else none
      else some (specifier, length)
  else none

/-- Adds the specifiers of a form in a text to those found before, last first. The first `skip`
characters of the text belong to an earlier match. -/
def Form.scanAfter (form : Form) (found : List (List Char)) : Nat → List Char → List (List Char)
  | _, [] => found
  | skip + 1, _ :: rest => form.scanAfter found skip rest
  | 0, c :: rest =>
    match form.matchFront (c :: rest) with
    | some (specifier, length) => form.scanAfter (specifier :: found) (length - 1) rest
    | none => form.scanAfter found 0 rest

/-- The specifiers of a form in a text, from left to right. -/
def Form.scan (form : Form) (text : List Char) : List (List Char) :=
  (form.scanAfter [] 0 text).reverse

/-- Modules that the host brings along. -/
def hostModules : List String :=
  ["assert", "assert/strict", "async_hooks", "buffer", "child_process", "cluster", "console",
   "constants", "crypto", "dgram", "diagnostics_channel", "dns", "dns/promises", "domain",
   "events", "fs", "fs/promises", "http", "http2", "https", "inspector", "inspector/promises",
   "module", "net", "os", "path", "path/posix", "path/win32", "perf_hooks", "process", "punycode",
   "querystring", "readline", "readline/promises", "repl", "stream", "stream/consumers",
   "stream/promises", "stream/web", "string_decoder", "sys", "timers", "timers/promises", "tls",
   "trace_events", "tty", "url", "util", "util/types", "v8", "vm", "wasi", "worker_threads",
   "zlib"]

/-- Whether a specifier names a module of the host. -/
def isHostModule (specifier : String) : Bool :=
  "node:".toList.isPrefixOf specifier.toList || hostModules.contains specifier

/-- The package that a specifier reaches into. -/
def packageRoot (specifier : String) : String :=
  String.ofList (specifier.toList.takeWhile (· ≠ '/'))

/-- Whether a specifier is relative to the file that holds it. -/
def isRelative (specifier : String) : Bool :=
  specifier.toList.head? = some '.'

/-- The references of a source text. -/
structure References where
  /-- Specifiers relative to the file. -/
  relative : OrderedSet String
  /-- Names of packages. -/
  packages : OrderedSet String

/-- Sorts one specifier in. -/
def References.add (refs : References) (specifier : String) : References :=
  if isRelative specifier then { refs with relative := refs.relative.insert specifier }
  else if isHostModule specifier then refs
  else { refs with packages := refs.packages.insert (packageRoot specifier) }

/-- The specifiers of a source text: form by form, from left to right. -/
def specifiers (text : List Char) : List String :=
  forms.flatMap fun form => (form.scan text).map String.ofList

/-- The references of a source text. -/
def references (text : List Char) : References :=
  (specifiers text).foldl References.add ⟨.empty, .empty⟩

end RepoAtlas.Source
