import RepoAtlas.Command.Invocation
import RepoAtlas.Graph.Export
import RepoAtlas.Json.Writer
import RepoAtlas.Linking
import RepoAtlas.Survey

/-!
# `RepoAtlas.Command.Run`: carrying out requests

A request prints its result and ends with status 0, or tells what is wrong and ends with status 1.
Failures that the user of a command line can do nothing about are passed on.
-/

set_option autoImplicit false

namespace RepoAtlas.Work

open RepoAtlas.Command

/-- Starts telling notices, on the console and in a log file if one is given. -/
def openJournal (verbose : Bool) (logFile : Option String) : Work Unit := do
  modify fun s => { s with journal := some { verbose := verbose } }
  if let some path := logFile then
    makeParents (Path.tidy path)
    refuseNull path
    -- The file is made at once, so that a place that cannot be written to shows before the work.
    let file := Path.normalize (← absolute path)
    match (← tree).extendFile file [] with
    | .ok tree =>
      setTree tree
      modify fun s => { s with journal := some { verbose := verbose, file := some file } }
    | .error fault => throw (.system fault file)

/-- A path as seen from the session's directory if it lies below it, else as it was given. -/
def shown (path : String) : Work String := do
  let resolved := Path.names (← resolve path)
  let here := Path.names (← get).directory
  if here.isPrefixOf resolved then
    return Path.tidy ("/".intercalate (resolved.drop here.length))
  else
    return Path.tidy path

/-- The text of a graph. -/
def graphText (style : Json.Style) (graph : Graph) : Work String := do
  unless graph.toJson.isWritable do
    throw .integerUnwritable
  return Json.write style graph.toJson ++ "\n"

/-- Writes a graph to a file and makes the missing directories above it. -/
def saveGraph (graph : Graph) (path : String) : Work Unit := do
  makeParents (Path.tidy path)
  writeText (Path.tidy path) (← graphText .indented graph)

/-- Tells what is wrong and gives the status of a request that cannot be carried out. -/
def refuse (text : String) : Work Nat := do
  tell (text ++ "\n")
  return 1

/-- Whether a failure says that there is no repository to survey. -/
def isMissingRoot : Failure → Bool
  | .rootMissing _ | .rootNotDirectory _ => true
  | .system .notFound _ | .system .notDirectory _ => true
  | _ => false

/-- Prints or writes a graph. -/
def deliver (graph : Graph) (output : Option String) (compact : Bool) : Work Nat := do
  match output with
  | some path =>
    saveGraph graph path
    let place ← shown path
    print s!"Module graph written to {place}\n"
  | none => print (← graphText (if compact then .compact else .indented) graph)
  return 0

/-- Surveys a repository and delivers its graph. -/
def runDetect (root : String) (output : Option String) (compact : Bool) : Work Nat := do
  let surveyed : Except Failure Graph ←
    try
      let graph ← survey none root
      pure (.ok graph)
    catch failure => pure (.error failure)
  match surveyed with
  | .ok graph => deliver graph output compact
  | .error failure =>
    if isMissingRoot failure then
      refuse failure.message
    else if failure.isSystem then
      refuse (s!"modgraph detect failed: {failure.message}\n" ++
        "Run with --verbose for more details.")
    else
      throw failure

/-- Does something with the manual links of a repository, given its root and the places of its
links files. Settings that are at fault are as if nothing were set. -/
def withLinks (root : String) (act : String → List String → Work Nat) : Work Nat := do
  let path ← resolve (← expandHome root)
  if (← probe path) = some .directory then
    let settings ← settingsOr path fun _ => return {}
    act path settings.linksFiles
  else
    refuse s!"Repository path not found: {root}"

/-- Tells a failure that lies in the request and gives the status; other failures are passed on. -/
def refuseBadRequest (failure : Failure) : Work Nat :=
  match failure with
  | .unknownModule _ _ => refuse failure.message
  | _ => if failure.isBadValue then refuse failure.message else throw failure

/-- Prints the manual links of a repository. -/
def runListLinks (root : String) : Work Nat :=
  withLinks root fun path places => do
    let links ← loadLinks path places
    print (Json.write .indented (Module.Link.listToJson links) ++ "\n")
    return 0

/-- Adds a manual link between two modules of a repository. -/
def runAddLink (root source target : String) : Work Nat :=
  withLinks root fun path places => do
    -- A survey that fails is no fault of the link, so it is not told as one.
    let graph ← survey none path
    try
      let (_, created) ← addLink path places (graph.modules.map FinishedModule.id) source target
      if created then
        print s!"Linked {source} -> {target}\n"
      else
        print s!"Link {source} -> {target} already exists\n"
      return 0
    catch failure => refuseBadRequest failure

/-- Removes a manual link of a repository. -/
def runRemoveLink (root source target : String) : Work Nat :=
  withLinks root fun path places => do
    try
      if ← removeLink path places source target then
        print s!"Removed link {source} -> {target}\n"
        return 0
      else
        refuse s!"Link not found: {source} -> {target}"
    catch failure => refuseBadRequest failure

/-- Carries out a request. -/
def runRequest : Request → Work Nat
  | .detect root output compact => runDetect root output compact
  | .listLinks root => runListLinks root
  | .addLink root source target => runAddLink root source target
  | .removeLink root source target => runRemoveLink root source target

/-- Carries out an invocation and gives its exit status. -/
def runInvocation (invocation : Invocation) : Work Nat := do
  openJournal invocation.verbose invocation.logFile
  runRequest invocation.request

end RepoAtlas.Work
