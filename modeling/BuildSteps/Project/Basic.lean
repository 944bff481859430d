import BuildSteps.Error
import BuildSteps.Project.Configuration

/-!
# Projects

A project: where its sources are looked for, the source files found or generated so far, and its
configurations. Discovery finds the regular files below the source roots that have one of the
extensions and are not left out by name.
-/

namespace BuildSteps

/-! ## 1. Projects -/

structure Project where
  name : String
  root : Path
  /-- The folders searched for sources, below `root` unless they are absolute. -/
  sourceRoots : List Path
  /-- The extensions of sources, in lower case and without a dot. -/
  extensions : List String
  /-- Files that discovery leaves out, below `root`. -/
  excludedFiles : List Path
  /-- Patterns of files that no generator is run on. -/
  excludedPatterns : List String
  /-- The source files, in the order in which they became known. -/
  sourceFiles : List Path
  configurations : List Configuration
  /-- Whether the source files were looked for or given. -/
  discovered : Bool
  deriving DecidableEq, Repr

namespace Project

def defaultExtensions : List String := ["cpp", "cc", "c", "h", "hpp", "hxx", "inl"]

def normalizeExtensions (extensions : List String) : List String :=
  extensions.map fun e => Text.lowercase (Text.dropLeading '.' e)

def create (name : String) (root : Path) : Project where
  name := name
  root := root
  sourceRoots := [⟨""⟩]
  extensions := defaultExtensions
  excludedFiles := []
  excludedPatterns := []
  sourceFiles := []
  configurations := []
  discovered := false

def addSourceFile (project : Project) (file : Path) : Project :=
  { project with sourceFiles := Path.insertLast project.sourceFiles file }

def addSourceFiles (project : Project) (files : List Path) : Project :=
  files.foldl addSourceFile project

/-- Gives the project its source files in place of a search for them. -/
def setSourceFiles (project : Project) (files : List Path) : Project :=
  { ({ project with sourceFiles := [] } : Project).addSourceFiles files with discovered := true }

def configuration? (project : Project) (target : Target) : Option Configuration :=
  project.configurations.find? (·.target = target)

theorem target_of_configuration? {project : Project} {target : Target} {conf : Configuration}
    (h : project.configuration? target = some conf) : conf.target = target := by
  have htarget := List.find?_some h
  exact of_decide_eq_true htarget

def alterConfigurations (target : Target) (change : Configuration → Configuration) :
    List Configuration → List Configuration
  | [] => []
  | conf :: confs =>
    if conf.target = target then change conf :: confs
    else conf :: alterConfigurations target change confs

def alterConfiguration (project : Project) (target : Target)
    (change : Configuration → Configuration) : Project :=
  { project with configurations := alterConfigurations target change project.configurations }

def precompiledFileNames (project : Project) : List String :=
  [].insertAllLast (((project.configurations.flatMap (·.precompiledNames)).map
    Text.lowercase).filter (· != ""))

def endsWithAny (p : Path) (names : List String) : Bool :=
  let lower := Text.lowercase p.text
  names.any fun name => Text.endsWith lower name

def isPrecompiledFile (project : Project) (p : Path) : Bool :=
  endsWithAny p project.precompiledFileNames

def stepCount (project : Project) : Nat :=
  (project.configurations.map (·.steps.length)).foldr (· + ·) 0

/-! ## 2. Source discovery -/

/-- Whether a file is left out by its path below the root of the project. -/
def isExcludedFile (project : Project) (p : Path) : Bool :=
  ((project.root.below? p).getD p).isIn project.excludedFiles

def acceptedFiles (project : Project) (files : List Path) : List Path :=
  files.filter fun p => p.hasExtension project.extensions && !project.isExcludedFile p

def findSources (project : Project) (fs : FileSystem) :
    List Path → Except BuildError (List Path)
  | [] => .ok []
  | sourceRoot :: roots =>
    let folder := project.root.join sourceRoot
    if fs.isDirectory folder then
      match findSources project fs roots with
      | .error e => .error e
      | .ok files => .ok (project.acceptedFiles (fs.walkFiles folder) ++ files)
    else .error (.sourceRootNotFound folder)

def discover (project : Project) (fs : FileSystem) : Except BuildError Project :=
  match project.findSources fs project.sourceRoots with
  | .error e => .error e
  | .ok files => .ok { project.addSourceFiles files with discovered := true }

/-- Looks for source files and lists them: how many the list has grown by, and the project, which an
error leaves as it was. -/
def discoverSources (project : Project) (fs : FileSystem) : Except BuildError Nat × Project :=
  match project.discover fs with
  | .error e => (.error e, project)
  | .ok found => (.ok (found.sourceFiles.length - project.sourceFiles.length), found)

end Project

end BuildSteps
