import BuildSteps.Setup

/-!
# Scans

A scan tells which files each generator would be run on. It makes no steps and writes nothing.
-/

namespace BuildSteps

/-- The files of a project that each generator would be run on. -/
structure ScanReport where
  project : String
  sourceFiles : Nat
  moc : List Path
  rcc : List Path
  uic : List Path
  protoc : List Path
  deriving DecidableEq, Repr

inductive ScanError where
  /-- The sources of the project could not be found. -/
  | discovery (project : String) (cause : BuildError)
  /-- The files of a generator could not be picked. -/
  | selection (cause : BuildError)
  deriving DecidableEq, Repr

namespace Setup

def qtSources (s : Setup) (fs : FileSystem) (project : Project) : Except BuildError QtSources :=
  match s.qt with
  | none => .ok ⟨[], [], []⟩
  | some tool => tool.classify fs project

def schemaSources (s : Setup) (project : Project) : Except BuildError (List Path) :=
  match s.schema with
  | none => .ok []
  | some tool => tool.select project

def scan (s : Setup) (fs : FileSystem) : Except ScanError ScanReport :=
  match s.project.discover fs with
  | .error e => .error (.discovery s.project.name e)
  | .ok project =>
    match s.qtSources fs project with
    | .error e => .error (.selection e)
    | .ok sources =>
      match s.schemaSources project with
      | .error e => .error (.selection e)
      | .ok files =>
        .ok {
          project := project.name
          sourceFiles := project.sourceFiles.length
          moc := sources.moc
          rcc := sources.resources
          uic := sources.forms
          protoc := files }

def scanAll (fs : FileSystem) : List Setup → Except ScanError (List ScanReport)
  | [] => .ok []
  | s :: rest =>
    match s.scan fs with
    | .error e => .error e
    | .ok report =>
      match scanAll fs rest with
      | .error e => .error e
      | .ok reports => .ok (report :: reports)

end Setup

end BuildSteps
