import RepoAtlas.Naming.Directory
import RepoAtlas.Number.Shortest
import RepoAtlas.Path.Basic
import RepoAtlas.Text.Blank
import RepoAtlas.Yaml.Document

/-!
# `RepoAtlas.Settings`: what users can set

Settings name further directories to pass over, further containers and further extensions of
source files, and say where the side files with manual modules and links are. They are written in
YAML as a mapping; whatever is missing or of the wrong kind is as if it had not been set. Numbers
and truth values are taken as their texts where texts are wanted.
-/

set_option autoImplicit false

namespace RepoAtlas

open RepoAtlas.Number

/-- What users can set. -/
structure Settings where
  /-- Names of directories to pass over. -/
  excluded : List String := []
  /-- Names of containers. -/
  containers : List String := []
  /-- Extensions of source files. -/
  extensions : List String := []
  /-- Where manual modules are; no text or an empty one stands for the usual places. -/
  modulesFile : Option String := none
  /-- Where manual links are; no text or an empty one stands for the usual places. -/
  linksFile : Option String := none
  deriving DecidableEq, Repr

namespace Settings

/-- The name of the file that holds the settings of a repository. -/
def fileName : String := ".modgraph.yml"

/-- The usual places of manual modules. -/
def usualModulesFiles : List String := ["data/modules.json", "modules.json"]

/-- The usual places of manual links. -/
def usualLinksFiles : List String := ["data/module-links.json", "module-links.json"]

/-- An extension as it is compared: without blanks around it, in lower case, with a dot. -/
def extensionText (value : String) : String :=
  let text := Text.lower (String.ofList (Text.strip value.toList))
  if text = "" || text.toList.head? = some '.' then text else "." ++ text

/-- All names of directories to pass over. -/
def ignoredDirectories (settings : Settings) : List String :=
  Naming.ignoredDirectories ++ settings.excluded

/-- All names of containers, in lower case. -/
def containerNames (settings : Settings) : List String :=
  Naming.compositeDirectories ++ settings.containers.map Text.lower

/-- All extensions of source files. -/
def sourceExtensions (settings : Settings) : List String :=
  Path.sourceExtensions ++ (settings.extensions.map extensionText).filter (· ≠ "")

/-- One place if it is set, else the usual ones. -/
def placesOr (usual : List String) : Option String → List String
  | none | some "" => usual
  | some place => [place]

/-- The places where manual modules are looked for. -/
def modulesFiles (settings : Settings) : List String :=
  placesOr usualModulesFiles settings.modulesFile

/-- The places where manual links are looked for. -/
def linksFiles (settings : Settings) : List String :=
  placesOr usualLinksFiles settings.linksFile

/-- Why a file has no settings. -/
inductive Fault where
  /-- The file cannot be read as text. -/
  | unreadable (file reason : String)
  /-- The text is not YAML. -/
  | unparsable (file : String)
  /-- The text is something other than a mapping. -/
  | noMapping
  /-- A value in the text cannot be built. -/
  | badValue (fault : Yaml.Fault)
  /-- An integer has too many digits to be written as a text. -/
  | integerTooLong
  deriving DecidableEq, Repr

/-- Whether the fault lies in the file and not in one of its values. -/
def Fault.isFileFault : Fault → Bool
  | .unreadable _ _ | .unparsable _ | .noMapping => true
  | _ => false

/-- The wording of a fault. -/
def Fault.message : Fault → String
  | .unreadable file reason => s!"Failed to read {file}: {reason}"
  | .unparsable file => s!"Failed to parse {file}: the text is not YAML"
  | .noMapping => s!"{fileName} must contain a mapping at the root"
  | .badValue fault => fault.message
  | .integerTooLong => digitLimitText ""

/-- The texts of floating-point numbers. -/
def numberLayout : Layout := ⟨-4, 15, "inf", "nan"⟩

/-- The text of an integer. -/
def integerText (n : Int) : Except Fault String :=
  if digitLimit < digitCount n.natAbs then .error .integerTooLong else .ok (toString n)

/-- The text of a text or number; truth values and all else have none. All texts that can be set are
names and paths of files. -/
def textOf : Yaml.Value → Except Fault (Option String)
  | .str text => .ok (some text.toPath)
  | .int n => (integerText n).map some
  | .float x => .ok (some (numberLayout.render x))
  | _ => .ok none

/-- The text of an item of a list, where truth values have texts too. -/
def itemText : Yaml.Value → Except Fault (Option String)
  | .bool value => .ok (some (if value then "True" else "False"))
  | value => textOf value

/-- The texts that a value lists. One text is a list of its own; octets list their numbers. -/
def textsOf (document : Yaml.Document) : Yaml.Value → Except Fault (List String)
  | .str text => .ok [text.toPath]
  | .octets octets => .ok (octets.map fun octet => toString octet.toNat)
  | value => do
    let texts ← (document.items value).mapM itemText
    return texts.filterMap id

/-- The settings that a document makes. -/
def ofDocument (document : Yaml.Document) : Except Fault Settings := do
  let root := document.root
  match root with
  | .map _ =>
    let scan := document.member "scan" root
    let excluded ← textsOf document (document.member "exclude_dirs" scan)
    let containers ← textsOf document (document.member "composite_dirs" scan)
    let extensions ← textsOf document (document.member "extensions" scan)
    let places := document.member "overrides" root
    let modulesFile ← textOf (document.member "modules_file" places)
    let linksFile ← textOf (document.member "links_file" places)
    return { excluded, containers, extensions, modulesFile, linksFile }
  | _ => if root.isBlank then return {} else throw .noMapping

/-- The settings that the text of a file makes. -/
def ofText (file : String) (text : List Char) : Except Fault Settings :=
  if text.all Text.isBlank then .ok {}
  else
    match Yaml.Document.read text with
    | .ok document => ofDocument document
    | .error .malformed => .error (.unparsable file)
    | .error fault => .error (.badValue fault)

end Settings

end RepoAtlas
