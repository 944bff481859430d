import BuildSteps.MarkerScanner
import BuildSteps.Tool.Collection

/-!
# The Qt tool

Sources that hold a marker get a meta-object step, resource collections and forms their own steps.
All outputs go into one folder, which becomes a private include path of every configuration. A
translation unit gets two records of its step, and a placeholder for the one in project files: a small
file that stands for the source file. It only has to be there; it holds the path of the source file. A
failure to create one is reported and otherwise ignored.
-/

namespace BuildSteps

/-! ## 1. Placeholders -/

namespace Placeholder

inductive Outcome where
  | created
  /-- Something was there before. -/
  | existing
  /-- Its name turned out to be taken when it was to be created. -/
  | contended
  | failed
  deriving DecidableEq, Repr

def content (source : Path) : List UInt8 := (source.text ++ "\n").toUTF8.toList

def ensure (fs : FileSystem) (source intermediate : Path) : Outcome × FileSystem :=
  if fs.pathExists intermediate then (.existing, fs)
  else
    let (made, fs) : Except FileError Unit × FileSystem :=
      match intermediate.parent? with
      | none => (.ok (), fs)
      | some parent => if parent.text.isEmpty then (.ok (), fs) else fs.makeDirectories parent
    match made with
    | .error _ => (.failed, fs)
    | .ok () =>
      match fs.writeNew intermediate (content source) with
      | .ok fs => (.created, fs)
      | .error .alreadyExists => (.contended, fs)
      | .error _ => (.failed, fs)

end Placeholder

/-! ## 2. The tool -/

structure QtExecutables where
  moc : Path
  rcc : Path
  uic : Path
  deriving DecidableEq, Repr

def QtExecutables.defaultSuffix : String := ".exe"

def QtExecutables.inFolder (folder : Path) (suffix : String) : QtExecutables where
  moc := folder.join ⟨"moc" ++ suffix⟩
  rcc := folder.join ⟨"rcc" ++ suffix⟩
  uic := folder.join ⟨"uic" ++ suffix⟩

structure QtSources where
  moc : List Path
  resources : List Path
  forms : List Path
  deriving DecidableEq, Repr

def QtSources.isEmpty (sources : QtSources) : Bool :=
  sources.moc.isEmpty && sources.resources.isEmpty && sources.forms.isEmpty

structure QtTool where
  executables : QtExecutables
  /-- The folder of all outputs. -/
  sharedFolder : Path
  /-- Patterns of files that no step is made for. -/
  excludedPatterns : List String
  /-- Patterns of files whose output is listed but not compiled on its own. -/
  uncompiledPatterns : List String
  additional : List AdditionalDefinition
  /-- The extensions of files that are searched for markers. -/
  scanExtensions : List String
  createPlaceholders : Bool
  scanner : MarkerScanner
  deriving DecidableEq, Repr

namespace QtTool

def defaultScanExtensions : List String := ["h", "hpp", "hxx", "cpp", "cxx", "cc"]

def create (folder sharedFolder : Path) : QtTool where
  executables := .inFolder folder QtExecutables.defaultSuffix
  sharedFolder := sharedFolder
  excludedPatterns := []
  uncompiledPatterns := []
  additional := []
  scanExtensions := defaultScanExtensions
  createPlaceholders := true
  scanner := .qt

def classify (tool : QtTool) (fs : FileSystem) (project : Project) :
    Except BuildError QtSources :=
  match Exclusion.ofProject project tool.excludedPatterns with
  | .error e => .error e
  | .ok exclusion =>
    let candidates := exclusion.admitted project.sourceFiles
    .ok {
      moc := tool.scanner.filterFiles fs (candidates.filter (·.hasExtension tool.scanExtensions))
      resources := candidates.filter (·.hasExtension ["qrc"])
      forms := candidates.filter (·.hasExtension ["ui"]) }

/-- The meta-object steps of a configuration, each followed by its record for project files. -/
def mocSteps (tool : QtTool) (sources : QtSources) (target : Target) : List Step :=
  sources.moc.flatMap fun file =>
    let step :=
      Step.metaObject target tool.executables.moc tool.sharedFolder tool.sharedFolder file
    step :: step.projectVariant?.toList

def steps (tool : QtTool) (sources : QtSources) (target : Target) : List Step :=
  tool.mocSteps sources target ++
    sources.resources.map (Step.resource target tool.executables.rcc tool.sharedFolder) ++
    sources.forms.map (Step.form target tool.executables.uic tool.sharedFolder)

def prepare (tool : QtTool) (sources : QtSources) (uncompiled : PatternSet)
    (conf : Configuration) : Configuration :=
  (conf.addPrivateIncludePath tool.sharedFolder).excludeOutputs uncompiled
    (tool.mocSteps sources conf.target)

/-- The source files and placeholders of the translation units, each pair once. -/
def placeholders (confs : List Configuration) (steps : Configuration → List Step) :
    List (Path × Path) :=
  (confs.flatMap fun conf => (steps conf).filterMap fun step =>
    step.intermediateFile.map fun p => (step.sourceFile, p)).foldl (fun pairs pair =>
      if pairs.any fun q => q.1.sameAs pair.1 && q.2.sameAs pair.2 then pairs
      else pairs ++ [pair]) []

def ensureAll (fs : FileSystem) (pairs : List (Path × Path)) : FileSystem :=
  pairs.foldl (fun fs pair => (Placeholder.ensure fs pair.1 pair.2).2) fs

def collect (tool : QtTool) (fs : FileSystem) (project : Project) : Collected :=
  match tool.classify fs project with
  | .error e => ⟨.error e, project, fs⟩
  | .ok sources =>
    match PatternSet.ofTexts tool.uncompiledPatterns with
    | .error e => ⟨.error e, project, fs⟩
    | .ok uncompiled =>
      let stepsOf := fun (conf : Configuration) => tool.steps sources conf.target
      let (collection, confs) :=
        Collection.empty.addAll stepsOf (tool.prepare sources uncompiled) project.configurations
      { result := .ok collection.table
        project :=
          ({ project with configurations := confs } : Project).addSourceFiles collection.generated
        files :=
          if tool.createPlaceholders then
            ensureAll fs (placeholders project.configurations stepsOf)
          else fs }

end QtTool

end BuildSteps
