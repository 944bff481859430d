import BuildSteps.FileSystem
import BuildSteps.Pattern.Basic
import BuildSteps.Target
import BuildSteps.Toml.Decode

/-!
# Errors

Each constructor is one cause; `message` is its wording.
-/

namespace BuildSteps

/-! ## 1. Step generation -/

/-- Why steps could not be generated. -/
inductive BuildError where
  | invalidPattern (pattern : String) (fault : Pattern.Fault)
  | unknownPlatform (text : String)
  | unknownDevEnv (text : String)
  | unknownOptimization (text : String)
  /-- The names along a cycle, the first one repeated at the end, where one was found. -/
  | circularDependency (cycle : Option (List String))
  | unknownProject (name : String)
  /-- A dependency that names no project, and the project that lists it. -/
  | unknownDependency (dependency dependent : String)
  | missingConfiguration (project : String) (target : Target)
  | unresolvedConfiguration (project : String) (target : Target)
  | sourceRootNotFound (folder : Path)
  | cannotCreate (folder : Path) (cause : FileError)
  deriving DecidableEq, Repr

def BuildError.message : BuildError → String
  | invalidPattern pattern fault => "Invalid pattern '" ++ pattern ++ "': " ++ fault.message
  | unknownPlatform text =>
    "Invalid target configuration: unknown platform '" ++ text ++ "'"
  | unknownDevEnv text => "Invalid target configuration: unknown dev env '" ++ text ++ "'"
  | unknownOptimization text =>
    "Invalid target configuration: unknown optimization '" ++ text ++ "'"
  | circularDependency cycle =>
    "Circular dependency detected: " ++ (cycle.map (Text.join " -> ")).getD "unknown cycle"
  | unknownProject name => "Project not found: " ++ name
  | unknownDependency dependency dependent =>
    "Project not found: " ++ dependency ++ " (required by " ++ dependent ++ ")"
  | missingConfiguration project target =>
    "Project '" ++ project ++ "' has no configuration for target " ++ target.display
  | unresolvedConfiguration project target =>
    "Configuration " ++ target.display ++ " of project '" ++ project ++
      "' was finalized before dependency resolution"
  | sourceRootNotFound folder => "Source root not found: " ++ folder.text
  | cannotCreate folder cause => "I/O error at " ++ folder.text ++ ": " ++ cause.message

/-! ## 2. Configuration files -/

/-- Why configuration files could not be used. -/
inductive ConfigError where
  | notFound (file : Path)
  | unreadable (cause : FileError)
  /-- The text of a file is no document, or its values are not what was expected. -/
  | badDocument (file : Path) (mismatch : Option Toml.Mismatch)
  | emptySolutionName
  | emptyMatrix
  | emptyProjectName
  | duplicateProject (name : String)
  | selfDependency (project : String)
  | unknownDependency (project dependency : String)
  | emptySharedFolder (project : String)
  | emptySchemaFolder (project : String)
  /-- No program folder for a project that uses Qt. -/
  | missingQtFolder (project : String) (file : Path)
  | badLogLevel (field value : String)
  | homeNotFound
  deriving DecidableEq, Repr

namespace ConfigError

def invalid (reason : String) : String := "Invalid configuration: " ++ reason

def invalidValue (field reason : String) : String :=
  "Invalid value for '" ++ field ++ "': " ++ reason

def message : ConfigError → String
  | notFound file => "Configuration file not found: " ++ file.text
  | unreadable cause => "Failed to read configuration file: " ++ cause.message
  | badDocument file none => "Invalid TOML syntax in " ++ file.text ++ ": TOML parse error"
  | badDocument file (some mismatch) =>
    "Invalid TOML syntax in " ++ file.text ++ ": TOML parse error\n" ++ mismatch.message ++ "\n"
  | emptySolutionName => invalid "solution name cannot be empty"
  | emptyMatrix =>
    invalid "target matrix is empty: platforms, dev_envs and optimizations need a value each"
  | emptyProjectName => invalid "project name cannot be empty"
  | duplicateProject name => invalid ("duplicate project '" ++ name ++ "'")
  | selfDependency project =>
    invalidValue ("project." ++ project ++ ".dependencies") "a project cannot depend on itself"
  | unknownDependency project dependency =>
    invalidValue ("project." ++ project ++ ".dependencies")
      ("unknown project '" ++ dependency ++ "'")
  | emptySharedFolder project =>
    invalidValue ("project." ++ project ++ ".qt.shared_folder") "cannot be empty"
  | emptySchemaFolder project =>
    invalidValue ("project." ++ project ++ ".proto")
      "source_folder and destination_folder cannot be empty"
  | missingQtFolder project file =>
    "Missing required field 'project." ++ project ++ ".qt.bin_dir' in " ++ file.text
  | badLogLevel field value =>
    invalidValue field ("must be one of trace, debug, info, warn, error, got '" ++ value ++ "'")
  | homeNotFound => "Home directory not found"

/-- What lies behind an error, when its own wording does not say all. -/
def cause? : ConfigError → Option FileError
  | unreadable cause => some cause
  | _ => none

end ConfigError

end BuildSteps
