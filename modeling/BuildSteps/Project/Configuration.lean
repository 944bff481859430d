import BuildSteps.Step

/-!
# Configurations

What a project is for one target: its paths, defines, dependencies and custom build steps. The bundle
of a configuration is computed from its final include paths and defines; defines can be added for some
platforms and development environments.
-/

namespace BuildSteps

/-! ## 1. Configurations -/

structure Configuration where
  target : Target
  /-- The folder of the project file. -/
  projectPath : Path
  /-- The folder of intermediate build files. -/
  intermediatePath : Path
  /-- The include paths that dependents take over. -/
  includePaths : List Path
  privateIncludePaths : List Path
  /-- The include paths taken over from dependencies. -/
  dependenciesIncludePaths : List Path
  defines : List String
  /-- The defines that dependents take over. -/
  exportDefines : List String
  /-- The names of the projects this one depends on. -/
  dependencies : List String
  precompiledHeader : Option String
  precompiledSource : Option String
  /-- Patterns of source files that are listed but not compiled. -/
  buildExcludes : List String
  steps : List Step
  /-- Whether include paths and defines are final. -/
  resolved : Bool
  deriving DecidableEq, Repr

namespace Configuration

def empty (target : Target) : Configuration where
  target := target
  projectPath := ⟨""⟩
  intermediatePath := ⟨""⟩
  includePaths := []
  privateIncludePaths := []
  dependenciesIncludePaths := []
  defines := []
  exportDefines := []
  dependencies := []
  precompiledHeader := none
  precompiledSource := none
  buildExcludes := []
  steps := []
  resolved := false

def addPrivateIncludePath (conf : Configuration) (p : Path) : Configuration :=
  { conf with privateIncludePaths := Path.insertLast conf.privateIncludePaths p }

def addBuildExclude (conf : Configuration) (pattern : String) : Configuration :=
  { conf with buildExcludes := conf.buildExcludes.insertLast pattern }

def addStep (conf : Configuration) (step : Step) : Configuration :=
  { conf with steps := conf.steps ++ [step] }

def precompiledNames (conf : Configuration) : List String :=
  conf.precompiledHeader.toList ++ conf.precompiledSource.toList

end Configuration

/-! ## 2. Resolved arguments -/

structure AdditionalDefinition where
  platforms : List Platform
  devEnvs : List DevEnv
  defines : List String
  deriving DecidableEq, Repr

def AdditionalDefinition.matchesTarget (d : AdditionalDefinition) (t : Target) : Bool :=
  d.platforms.contains t.platform && d.devEnvs.contains t.devEnv

namespace Configuration

def stripBlanks (define : String) : String :=
  String.ofList (define.toList.filter (· != ' '))

/-- The defines of a configuration and those added to it, without blanks, each once and none
empty. -/
def allDefines (conf : Configuration) (additional : List AdditionalDefinition) : List String :=
  let added := (additional.filter (·.matchesTarget conf.target)).flatMap (·.defines)
  [].insertAllLast (((conf.defines ++ added).map stripBlanks).filter (· != ""))

def allIncludePaths (conf : Configuration) : List Path :=
  Path.insertAllLast []
    (conf.includePaths ++ conf.dependenciesIncludePaths ++ conf.privateIncludePaths)

def bundle (conf : Configuration) (additional : List AdditionalDefinition) : Bundle where
  defines := Text.join " " ((conf.allDefines additional).map ("-D" ++ ·))
  includePaths := conf.allIncludePaths
  forcedInclude :=
    match conf.precompiledHeader with
    | none => none
    | some header => if header.isEmpty then none else some ⟨header⟩

end Configuration

end BuildSteps
