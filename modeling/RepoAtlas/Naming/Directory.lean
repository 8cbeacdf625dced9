import RepoAtlas.Naming.Identifier

/-!
# `RepoAtlas.Naming.Directory`: what a directory's name says

The name of a directory decides three things: whether it is passed over (version control, caches,
build output and everything that starts with a dot), whether it is a container whose children are
modules of their own, and which module it stands for. Some names stand for a module with a fixed
identity; any other name is made into an identifier and a title.
-/

set_option autoImplicit false

namespace RepoAtlas.Naming

/-- The identity of a module. -/
structure Identity where
  id : String
  name : String
  kind : String
  deriving DecidableEq, Repr

/-- Names of directories that hold no module. -/
def ignoredDirectories : List String :=
  ["node_modules", ".git", ".idea", ".vscode", ".cache", ".next", ".turbo", "dist", "build",
   "coverage", "logs", "tmp", "temp"]

/-- Names of containers of modules, in lower case. -/
def compositeDirectories : List String :=
  ["packages", "apps", "services", "modules", "workspaces"]

/-- Directory names with a fixed identity. -/
def wellKnown : List (String × Identity) :=
  [("public", ⟨"frontend", "Frontend Interface", "frontend"⟩),
   ("src", ⟨"src", "Application Source", "code"⟩),
   ("lib", ⟨"lib", "Library Modules", "code"⟩),
   ("server", ⟨"server", "Server Layer", "backend"⟩),
   ("agents", ⟨"agents", "Agent Library", "knowledge"⟩),
   ("docs", ⟨"docs", "Documentation", "documentation"⟩),
   ("data", ⟨"data", "Workspace Data", "storage"⟩),
   ("spec", ⟨"spec", "Spec Archive", "artifacts"⟩),
   ("exports", ⟨"legacy-exports", "Legacy Exports", "artifacts"⟩),
   ("scripts", ⟨"scripts", "Automation Scripts", "automation"⟩)]

/-- The identity of the module that an entry file of a server makes. -/
def backend : Identity :=
  ⟨"backend", "Backend API", "backend"⟩

/-- The identity that a directory's name stands for. -/
def classify (name : String) : Identity :=
  match wellKnown.lookup name with
  | some identity => identity
  | none => ⟨sanitize name, humanize name, "code"⟩

/-- Whether a directory is passed over, given further names to pass over. -/
def isIgnored (name : String) (extra : List String) : Bool :=
  name.toList.head? = some '.' || ignoredDirectories.contains name || extra.contains name

/-- Whether a directory is a container, given further names in lower case. -/
def isComposite (name : String) (extra : List String) : Bool :=
  let lowered := Text.lower name
  compositeDirectories.contains lowered || extra.contains lowered

end RepoAtlas.Naming
