import BuildSteps.Error
import BuildSteps.Project.Configuration
import BuildSteps.Toml.Document

/-!
# Solution manifests

A manifest describes the projects of a solution, the matrix of targets they are generated for, and
the generators that run on each project.
-/

namespace BuildSteps

structure QtSection where
  binDir : Option Path
  exeSuffix : Option String
  sharedFolder : String
  excludeRegex : List String
  excludeFromCompileRegex : List String
  scanExtensions : List String
  placeholders : Bool
  additionalDefines : List AdditionalDefinition
  deriving DecidableEq, Repr

structure ProtoSection where
  sourceFolder : String
  destinationFolder : String
  releaseExecutable : Option Path
  debugExecutable : Option Path
  excludeRegex : List String
  excludeFromCompileRegex : List String
  additionalDefines : List AdditionalDefinition
  deriving DecidableEq, Repr

structure ProjectManifest where
  name : String
  path : Option Path
  sourceRoots : List Path
  extensions : List String
  exclude : List Path
  excludeRegex : List String
  dependencies : List String
  includePaths : List String
  privateIncludePaths : List String
  defines : List String
  exportDefines : List String
  precompiledHeader : Option String
  precompiledSource : Option String
  projectDir : Option String
  intermediateDir : Option String
  qt : Option QtSection
  proto : Option ProtoSection
  deriving DecidableEq, Repr

structure SolutionSection where
  name : String
  platforms : List Platform
  devEnvs : List DevEnv
  optimizations : List Optimization
  deriving DecidableEq, Repr

structure Manifest where
  solution : SolutionSection
  projects : List ProjectManifest
  deriving DecidableEq, Repr

/-- The folder of a project, seen from that of the manifest: the one given, or its name. -/
def ProjectManifest.directory (p : ProjectManifest) : Path := p.path.getD ⟨p.name⟩

namespace Manifest

open Toml

def fileName : String := "stepgen.toml"

/-! ## Decoding -/

def asTexts : Value → Decoded (List String) := Value.asList Value.asText

def asPaths : Value → Decoded (List Path) := Value.asList Value.asPath

def asPlatforms : Value → Decoded (List Platform) :=
  Value.asList (Value.asChoice (Platform.all.map fun p => (p.name, p)))

def asDevEnvs : Value → Decoded (List DevEnv) :=
  Value.asList (Value.asChoice (DevEnv.all.map fun d => (d.name, d)))

def asOptimizations : Value → Decoded (List Optimization) :=
  Value.asList (Value.asChoice (Optimization.all.map fun o => (o.key, o)))

/-- The fields of additional defines. Other fields are passed over. -/
def additionalSchema : Schema where
  name := "AdditionalDefinition"
  fields := [("platforms", must asPlatforms), ("dev_envs", must asDevEnvs),
    ("defines", must asTexts)]
  isStrict := false

def asAdditional (v : Value) : Decoded AdditionalDefinition := do
  let fields ← additionalSchema.fieldsOf v
  return {
    platforms := ← fields.required "platforms" asPlatforms
    devEnvs := ← fields.required "dev_envs" asDevEnvs
    defines := ← fields.required "defines" asTexts }

def asAdditionals : Value → Decoded (List AdditionalDefinition) := Value.asList asAdditional

def qtSchema : Schema where
  name := "QtSection"
  fields := [("bin_dir", must Value.asPath), ("exe_suffix", must Value.asText),
    ("shared_folder", must Value.asText), ("exclude_regex", must asTexts),
    ("exclude_from_compile_regex", must asTexts), ("scan_extensions", must asTexts),
    ("placeholders", must Value.asBool), ("additional_defines", must asAdditionals)]
  isStrict := true

def asQt (v : Value) : Decoded QtSection := do
  let fields ← qtSchema.fieldsOf v
  return {
    binDir := ← fields.optional "bin_dir" Value.asPath
    exeSuffix := ← fields.optional "exe_suffix" Value.asText
    sharedFolder := ← fields.required "shared_folder" Value.asText
    excludeRegex := ← fields.withDefault "exclude_regex" asTexts []
    excludeFromCompileRegex := ← fields.withDefault "exclude_from_compile_regex" asTexts []
    scanExtensions := ← fields.withDefault "scan_extensions" asTexts []
    placeholders := ← fields.withDefault "placeholders" Value.asBool true
    additionalDefines := ← fields.withDefault "additional_defines" asAdditionals [] }

def protoSchema : Schema where
  name := "ProtoSection"
  fields := [("source_folder", must Value.asText), ("destination_folder", must Value.asText),
    ("release_executable", must Value.asPath), ("debug_executable", must Value.asPath),
    ("exclude_regex", must asTexts), ("exclude_from_compile_regex", must asTexts),
    ("additional_defines", must asAdditionals)]
  isStrict := true

def asProto (v : Value) : Decoded ProtoSection := do
  let fields ← protoSchema.fieldsOf v
  return {
    sourceFolder := ← fields.required "source_folder" Value.asText
    destinationFolder := ← fields.required "destination_folder" Value.asText
    releaseExecutable := ← fields.optional "release_executable" Value.asPath
    debugExecutable := ← fields.optional "debug_executable" Value.asPath
    excludeRegex := ← fields.withDefault "exclude_regex" asTexts []
    excludeFromCompileRegex := ← fields.withDefault "exclude_from_compile_regex" asTexts []
    additionalDefines := ← fields.withDefault "additional_defines" asAdditionals [] }

def projectSchema : Schema where
  name := "ProjectManifest"
  fields := [("name", must Value.asText), ("path", must Value.asPath),
    ("source_roots", must asPaths), ("extensions", must asTexts), ("exclude", must asPaths),
    ("exclude_regex", must asTexts), ("dependencies", must asTexts),
    ("include_paths", must asTexts), ("private_include_paths", must asTexts),
    ("defines", must asTexts), ("export_defines", must asTexts),
    ("precompiled_header", must Value.asText), ("precompiled_source", must Value.asText),
    ("project_dir", must Value.asText), ("intermediate_dir", must Value.asText),
    ("qt", must asQt), ("proto", must asProto)]
  isStrict := true

def asProject (v : Value) : Decoded ProjectManifest := do
  let fields ← projectSchema.fieldsOf v
  return {
    name := ← fields.required "name" Value.asText
    path := ← fields.optional "path" Value.asPath
    sourceRoots := ← fields.withDefault "source_roots" asPaths []
    extensions := ← fields.withDefault "extensions" asTexts []
    exclude := ← fields.withDefault "exclude" asPaths []
    excludeRegex := ← fields.withDefault "exclude_regex" asTexts []
    dependencies := ← fields.withDefault "dependencies" asTexts []
    includePaths := ← fields.withDefault "include_paths" asTexts []
    privateIncludePaths := ← fields.withDefault "private_include_paths" asTexts []
    defines := ← fields.withDefault "defines" asTexts []
    exportDefines := ← fields.withDefault "export_defines" asTexts []
    precompiledHeader := ← fields.optional "precompiled_header" Value.asText
    precompiledSource := ← fields.optional "precompiled_source" Value.asText
    projectDir := ← fields.optional "project_dir" Value.asText
    intermediateDir := ← fields.optional "intermediate_dir" Value.asText
    qt := ← fields.optional "qt" asQt
    proto := ← fields.optional "proto" asProto }

def solutionSchema : Schema where
  name := "SolutionSection"
  fields := [("name", must Value.asText), ("platforms", must asPlatforms),
    ("dev_envs", must asDevEnvs), ("optimizations", must asOptimizations)]
  isStrict := true

/-- The solution section; the matrix has two targets unless it says otherwise. -/
def asSolution (v : Value) : Decoded SolutionSection := do
  let fields ← solutionSchema.fieldsOf v
  return {
    name := ← fields.required "name" Value.asText
    platforms := ← fields.withDefault "platforms" asPlatforms [.win64]
    devEnvs := ← fields.withDefault "dev_envs" asDevEnvs [.vs2022]
    optimizations := ← fields.withDefault "optimizations" asOptimizations [.debug, .release] }

def asProjects : Value → Decoded (List ProjectManifest) := Value.asList asProject

def schema : Schema where
  name := "SolutionManifest"
  fields := [("solution", must asSolution), ("project", must asProjects)]
  isStrict := true

def asManifest (v : Value) : Decoded Manifest := do
  let fields ← schema.fieldsOf v
  return {
    solution := ← fields.required "solution" asSolution
    projects := ← fields.withDefault "project" asProjects [] }

/-! ## Validation -/

def isBlankText (text : String) : Bool :=
  text.toList.all fun c => Unicode.memberOf c.toNat Unicode.blankSpans

/-- The first fault in the names of projects, given the names before them. -/
def nameFault? (seen : List String) : List ProjectManifest → Option ConfigError
  | [] => none
  | p :: rest =>
    if isBlankText p.name then some .emptyProjectName
    else if seen.contains p.name then some (.duplicateProject p.name)
    else nameFault? (p.name :: seen) rest

def dependencyFault? (names : List String) (project dependency : String) : Option ConfigError :=
  if dependency = project then some (.selfDependency project)
  else if names.contains dependency then none
  else some (.unknownDependency project dependency)

def projectFault? (names : List String) (p : ProjectManifest) : Option ConfigError :=
  p.dependencies.findSome? (dependencyFault? names p.name) <|>
    (p.qt.bind fun qt =>
      if isBlankText qt.sharedFolder then some (.emptySharedFolder p.name) else none) <|>
    (p.proto.bind fun proto =>
      if isBlankText proto.sourceFolder || isBlankText proto.destinationFolder then
        some (.emptySchemaFolder p.name)
      else none)

def fault? (m : Manifest) : Option ConfigError :=
  if isBlankText m.solution.name then some .emptySolutionName
  else if m.solution.platforms.isEmpty || m.solution.devEnvs.isEmpty ||
      m.solution.optimizations.isEmpty then some .emptyMatrix
  else
    nameFault? [] m.projects <|>
      m.projects.findSome? (projectFault? (m.projects.map (·.name)))

def validate (m : Manifest) : Except ConfigError Unit :=
  match m.fault? with
  | some e => .error e
  | none => .ok ()

def targets (m : Manifest) : List Target :=
  Target.matrix m.solution.platforms m.solution.devEnvs m.solution.optimizations

def project? (m : Manifest) (name : String) : Option ProjectManifest :=
  m.projects.find? (·.name == name)

end Manifest

def readDocument {α : Type} (fs : FileSystem) (file : Path)
    (decode : Toml.Value → Toml.Decoded α) : Except ConfigError α :=
  match fs.readText file with
  | .error .notFound => .error (.notFound file)
  | .error e => .error (.unreadable e)
  | .ok text =>
    match Toml.parse? text with
    | none => .error (.badDocument file none)
    | some entries =>
      match decode (.table entries) with
      | .error mismatch => .error (.badDocument file (some mismatch))
      | .ok a => .ok a

def Manifest.load (fs : FileSystem) (file : Path) : Except ConfigError Manifest :=
  match readDocument fs file asManifest with
  | .error e => .error e
  | .ok m =>
    match m.validate with
    | .error e => .error e
    | .ok () => .ok m

end BuildSteps
