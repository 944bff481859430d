import BuildSteps.Solution
import BuildSteps.Workspace

/-!
# Setups

Turns the projects of a workspace into projects with one configuration for each target, and attaches
the tools that the manifest asks for. Paths of a project are templates, which name parts of the project
and the target in square brackets. The names are replaced one after the other, so a replacement can
bring in a name that is replaced later. Once expanded, paths are seen from the folder of the project.
-/

namespace BuildSteps

/-! ## 1. Path templates -/

structure PathTemplate.Values where
  projectName : String
  projectPath : Path
  target : Option Target
  deriving DecidableEq, Repr

namespace PathTemplate

/-- The names and what replaces them, in the order of replacement. -/
def Values.replacements (values : Values) : List (String × String) :=
  [("[project.name]", values.projectName), ("[project.path]", values.projectPath.text)] ++
    match values.target with
    | none => []
    | some target =>
      [("[target.name]", target.name), ("[target.platform]", target.platform.name),
        ("[target.dev_env]", target.devEnv.name)]

def expand (values : Values) (template : String) : String :=
  values.replacements.foldl (fun text r => Text.replace r.1 r.2 text) template

end PathTemplate

/-! ## 2. Setups -/

structure Setup where
  project : Project
  qt : Option QtTool
  schema : Option SchemaTool
  deriving Repr

namespace Setup

/-- The tools in the order in which they run: the Qt tool reads files and therefore comes before the
tool whose outputs are not there yet. -/
def tools (s : Setup) : List Tool := (s.qt.map Tool.qt).toList ++ (s.schema.map Tool.schema).toList

def expandPath (values : PathTemplate.Values) (folder : Path) (template : String) : Path :=
  folder.join ⟨PathTemplate.expand values template⟩

/-- The extensions of the sources of a project; those of generators come after the usual ones. -/
def extensions (p : ProjectManifest) : List String :=
  if p.extensions.isEmpty then
    Project.defaultExtensions ++ (if p.qt.isSome then ["qrc", "ui"] else []) ++
      (if p.proto.isSome then ["proto"] else [])
  else p.extensions

def configuration (p : ProjectManifest) (root : Path) (target : Target) : Configuration :=
  let values : PathTemplate.Values := ⟨p.name, root, some target⟩
  let folder := fun (template : Option String) =>
    match template with
    | some template => expandPath values root template
    | none => ⟨""⟩
  { Configuration.empty target with
    projectPath := folder p.projectDir
    intermediatePath := folder p.intermediateDir
    includePaths := p.includePaths.map (expandPath values root)
    privateIncludePaths := p.privateIncludePaths.map (expandPath values root)
    defines := p.defines
    exportDefines := p.exportDefines
    dependencies := p.dependencies
    precompiledHeader := p.precompiledHeader
    precompiledSource := p.precompiledSource }

def projectOf (w : Workspace) (p : ProjectManifest) : Project :=
  let root := w.projectRoot p
  let project := Project.create p.name root
  { project with
    sourceRoots := if p.sourceRoots.isEmpty then project.sourceRoots else p.sourceRoots
    extensions := Project.normalizeExtensions (extensions p)
    excludedFiles := p.exclude
    excludedPatterns := p.excludeRegex
    configurations := w.manifest.targets.map (configuration p root) }

def qtTool (root binDir : Path) (p : ProjectManifest) (qt : QtSection) : QtTool :=
  let tool := QtTool.create binDir (expandPath ⟨p.name, root, none⟩ root qt.sharedFolder)
  { tool with
    executables := .inFolder binDir (qt.exeSuffix.getD QtExecutables.defaultSuffix)
    excludedPatterns := qt.excludeRegex
    uncompiledPatterns := qt.excludeFromCompileRegex
    additional := qt.additionalDefines
    createPlaceholders := qt.placeholders
    scanExtensions :=
      if qt.scanExtensions.isEmpty then tool.scanExtensions
      else Project.normalizeExtensions qt.scanExtensions }

def schemaTool (w : Workspace) (root : Path) (p : ProjectManifest) (proto : ProtoSection) :
    SchemaTool :=
  let folder := expandPath ⟨p.name, root, none⟩ root
  { SchemaTool.create (folder proto.sourceFolder) (folder proto.destinationFolder)
      (w.releaseProtoc p) (w.debugProtoc p) with
    excludedPatterns := proto.excludeRegex
    uncompiledPatterns := proto.excludeFromCompileRegex
    additional := proto.additionalDefines }

/-- The setup of a project; it fails only for want of a folder of Qt generators. -/
def ofProject (w : Workspace) (p : ProjectManifest) : Except ConfigError Setup :=
  let root := w.projectRoot p
  let schema := p.proto.map (schemaTool w root p)
  match p.qt with
  | none => .ok ⟨projectOf w p, none, schema⟩
  | some qt =>
    match w.qtBinDir p with
    | .error e => .error e
    | .ok binDir => .ok ⟨projectOf w p, some (qtTool root binDir p qt), schema⟩

def ofProjects (w : Workspace) :
    List ProjectManifest → Except (String × ConfigError) (List Setup)
  | [] => .ok []
  | p :: rest =>
    match ofProject w p with
    | .error e => .error (p.name, e)
    | .ok setup =>
      match ofProjects w rest with
      | .error e => .error e
      | .ok setups => .ok (setup :: setups)

def ofWorkspace (w : Workspace) : Except (String × ConfigError) (List Setup) :=
  ofProjects w w.manifest.projects

def solution (name : String) (setups : List Setup) : Solution :=
  ⟨name, setups.map fun s => ⟨s.project, s.tools⟩⟩

end Setup

end BuildSteps
