import BuildSteps.Path
import BuildSteps.Target

/-!
# Custom build steps

A step is one call of a code generator: what it reads, what it writes, the program that runs and its
arguments, and which kinds of build files show it. A step is made with the arguments that its files
determine; the bundle of its configuration, which all its steps share, is attached once, later.
Meta-object steps show the defines, include paths and forced includes of the bundle in front of their
template; the other steps show their template alone.
-/

namespace BuildSteps

/-! ## 1. Argument bundles -/

/-- The arguments shared by the steps of a configuration. -/
structure Bundle where
  /-- The defines, each after `-D`, with one blank between neighbours. -/
  defines : String
  /-- The folders searched for included files. -/
  includePaths : List Path
  /-- The precompiled header that steps on headers include first. -/
  forcedInclude : Option Path
  deriving DecidableEq, Repr

def Bundle.quotedIncludePaths (bundle : Bundle) (base : Option Path) : List String :=
  bundle.includePaths.map fun p => (p.relativeTo base).quoted

/-! ## 2. Steps -/

inductive StepKind where
  | metaObjectCompile | resourceCompile | uiCompile | schemaCompile
  deriving DecidableEq, Repr

namespace StepKind

def name : StepKind → String
  | metaObjectCompile => "moc"
  | resourceCompile => "rcc"
  | uiCompile => "uic"
  | schemaCompile => "protoc"

def verb : StepKind → String
  | metaObjectCompile => "Moc"
  | resourceCompile => "Rcc"
  | uiCompile => "Uic"
  | schemaCompile => "Proto compile"

def key : StepKind → String
  | metaObjectCompile => "meta-object-compile"
  | resourceCompile => "resource-compile"
  | uiCompile => "ui-compile"
  | schemaCompile => "schema-compile"

def all : List StepKind := [metaObjectCompile, resourceCompile, uiCompile, schemaCompile]

theorem mem_all (k : StepKind) : k ∈ all := by cases k <;> decide

end StepKind

/-- Which build files show a step. -/
inductive StepFilter where
  | all | fastBuildOnly | excludeFastBuild
  deriving DecidableEq, Repr

namespace StepFilter

def display : StepFilter → String
  | all => "all"
  | fastBuildOnly => "fastbuild-only"
  | excludeFastBuild => "exclude-fastbuild"

def key : StepFilter → String
  | all => "all"
  | fastBuildOnly => "fast-build-only"
  | excludeFastBuild => "exclude-fast-build"

end StepFilter

namespace Path

def hasExtension (p : Path) (extensions : List String) : Bool :=
  match p.extension? with
  | none => false
  | some extension => extensions.contains (Text.lowercase extension)

/-- Whether the path names a translation unit of C or C++ and not a header. -/
def isCppSource (p : Path) : Bool := p.hasExtension ["cpp", "cxx", "cc", "c"]

def forwardSlashes (p : Path) : String :=
  String.ofList (p.text.toList.map fun c => if c = '\\' then '/' else c)

end Path

def outputName (source : Path) : StepKind → String
  | .metaObjectCompile =>
    if source.isCppSource then source.fileStem ++ ".moc" else "moc_" ++ source.fileStem ++ ".cpp"
  | .resourceCompile => source.fileStem ++ ".rcc"
  | .uiCompile => "ui_" ++ source.fileStem ++ ".h"
  | .schemaCompile => source.fileStem ++ ".pb.h"

def outputPath (source : Path) (kind : StepKind) (outputFolder : Path) : Path :=
  outputFolder.join ⟨outputName source kind⟩

structure Step where
  kind : StepKind
  filter : StepFilter
  /-- The file that called for the step. -/
  sourceFile : Path
  /-- The declared main input. -/
  keyInput : Path
  output : Path
  /-- The placeholder that stands for a source file in project files. -/
  intermediateFile : Option Path
  executable : Path
  /-- The arguments, with `[input]` and `[output]` in place of the two paths. -/
  argumentsTemplate : String
  description : String
  additionalInputs : List Path
  forceIncludes : List Path
  /-- The bundle of the configuration, once it is attached. -/
  resolved : Option Bundle
  deriving DecidableEq, Repr

namespace Step

def base (kind : StepKind) (target : Target) (executable source output : Path)
    (template : String) : Step where
  kind := kind
  filter := .all
  sourceFile := source
  keyInput := source
  output := output
  intermediateFile := none
  executable := executable
  argumentsTemplate := template
  description := kind.verb ++ " " ++ target.name ++ " " ++ source.fileName
  additionalInputs := []
  forceIncludes := []
  resolved := none

/-- A meta-object step. On a translation unit it is the record that bootstraps a build without
project files, with a placeholder in `placeholderFolder`; a header is included by its own output. -/
def metaObject (target : Target) (executable placeholderFolder outputFolder source : Path) : Step :=
  let step := base .metaObjectCompile target executable source
    (outputPath source .metaObjectCompile outputFolder) "[input] -o [output]"
  if source.isCppSource then
    { step with
      filter := .fastBuildOnly
      intermediateFile := some (placeholderFolder.join ⟨source.fileStem ++ ".inl"⟩) }
  else { step with forceIncludes := [source] }

/-- The record for project files that goes with a bootstrap record: its declared input is the
placeholder, and the source file is watched as an additional input. -/
def projectVariant? (step : Step) : Option Step :=
  step.intermediateFile.map fun intermediate =>
    { step with
      filter := .excludeFastBuild
      keyInput := intermediate
      additionalInputs := [step.sourceFile] }

def resource (target : Target) (executable outputFolder source : Path) : Step :=
  base .resourceCompile target executable source
    (outputPath source .resourceCompile outputFolder) "-binary [input] -o [output]"

def form (target : Target) (executable outputFolder source : Path) : Step :=
  base .uiCompile target executable source
    (outputPath source .uiCompile outputFolder) "[input] -o [output]"

def schema (target : Target) (executable outputFolder source : Path) : Step :=
  let folder := (source.parent?.map Path.forwardSlashes).getD ""
  base .schemaCompile target executable source (outputPath source .schemaCompile outputFolder)
    ("--proto_path=" ++ folder ++ " " ++ source.fileName ++ " --cpp_out=" ++
      outputFolder.forwardSlashes)

def acceptsForcedInclude (step : Step) : Bool :=
  step.kind = .metaObjectCompile && !step.sourceFile.isCppSource

def forceIncludesWith (step : Step) (bundle : Bundle) : List Path :=
  match bundle.forcedInclude with
  | some header =>
    if step.acceptsForcedInclude then Path.insertLast step.forceIncludes header
    else step.forceIncludes
  | none => step.forceIncludes

/-- Attaches the bundle of the configuration; a step keeps the first bundle it gets. -/
def attach (step : Step) (bundle : Bundle) : Step :=
  if step.resolved.isSome then step
  else { step with forceIncludes := step.forceIncludesWith bundle, resolved := some bundle }

def isResolved (step : Step) : Bool := step.resolved.isSome

/-! ## 3. Command lines -/

def options (step : Step) (base : Option Path) : List String :=
  (match step.resolved with
    | none => []
    | some bundle =>
      (if bundle.defines.isEmpty then [] else [bundle.defines]) ++
        (bundle.quotedIncludePaths base).map ("-I" ++ ·)) ++
    step.forceIncludes.map fun p => "-f" ++ (p.relativeTo base).quoted

/-- The arguments, with `[input]` and `[output]` left in place. -/
def arguments (step : Step) (base : Option Path) : String :=
  if step.kind = .metaObjectCompile then
    Text.join " " (step.options base ++ [step.argumentsTemplate])
  else step.argumentsTemplate

def commandLine (step : Step) (base : Option Path) : String :=
  let input := (step.keyInput.relativeTo base).quoted
  let output := (step.output.relativeTo base).quoted
  step.executable.quoted ++ " " ++
    Text.replace "[output]" output (Text.replace "[input]" input (step.arguments base))

end Step

end BuildSteps
