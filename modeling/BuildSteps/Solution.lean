import BuildSteps.Dependency.Resolution
import BuildSteps.Tool.Basic

/-!
# Solutions

A solution is a list of projects, each with the tools that run on it. Generation finds the sources
of all projects, lets the tools collect steps, resolves the dependencies between the projects and
then lets the tools finalize what they collected. An error ends it; what was done before stays.
-/

namespace BuildSteps

inductive Phase where
  | collect | resolveDependencies | finalize
  deriving DecidableEq, Repr

namespace Phase

def name : Phase → String
  | collect => "collect"
  | resolveDependencies => "resolve-dependencies"
  | finalize => "finalize"

def all : List Phase := [collect, resolveDependencies, finalize]

end Phase

structure Solution.Member where
  project : Project
  tools : List Tool
  deriving Repr

structure Solution where
  name : String
  members : List Solution.Member
  deriving Repr

structure GenerationStats where
  projects : Nat
  /-- The source files known before steps were collected. -/
  sourceFiles : Nat
  /-- The source files added by collecting steps. -/
  generatedFiles : Nat
  /-- The number of steps of each kind that occurs. -/
  steps : List (StepKind × Nat)
  deriving DecidableEq, Repr

def GenerationStats.totalSteps (stats : GenerationStats) : Nat :=
  (stats.steps.map (·.2)).foldr (· + ·) 0

namespace Solution

def projects (s : Solution) : List Project := s.members.map (·.project)

def project? (s : Solution) (name : String) : Option Project :=
  s.projects.find? (·.name == name)

/-- Finds the sources of the members that have none yet, up to the first error. -/
def discoverMembers (fs : FileSystem) :
    List Member → Except BuildError Unit × List Member
  | [] => (.ok (), [])
  | m :: rest =>
    if m.project.discovered then
      let (result, rest) := discoverMembers fs rest
      (result, m :: rest)
    else
      match m.project.discover fs with
      | .error e => (.error e, m :: rest)
      | .ok project =>
        let (result, rest) := discoverMembers fs rest
        (result, { m with project } :: rest)

def collectTools (fs : FileSystem) (project : Project) :
    List Tool → Except BuildError (List StepTable) × Project × FileSystem
  | [] => (.ok [], project, fs)
  | tool :: tools =>
    match tool.collect fs project with
    | ⟨.error e, project, fs⟩ => (.error e, project, fs)
    | ⟨.ok table, project, fs⟩ =>
      match collectTools fs project tools with
      | (.error e, project, fs) => (.error e, project, fs)
      | (.ok tables, project, fs) => (.ok (table :: tables), project, fs)

def collectMembers (fs : FileSystem) :
    List Member → Except BuildError (List (List StepTable)) × List Member × FileSystem
  | [] => (.ok [], [], fs)
  | m :: rest =>
    match collectTools fs m.project m.tools with
    | (.error e, project, fs) => (.error e, { m with project } :: rest, fs)
    | (.ok tables, project, fs) =>
      match collectMembers fs rest with
      | (.error e, rest, fs) => (.error e, { m with project } :: rest, fs)
      | (.ok all, rest, fs) => (.ok (tables :: all), { m with project } :: rest, fs)

def finalizeTools (project : Project) :
    List (Tool × StepTable) → Except BuildError Unit × Project
  | [] => (.ok (), project)
  | (tool, table) :: rest =>
    match tool.finalize table project with
    | (.error e, project) => (.error e, project)
    | (.ok (), project) => finalizeTools project rest

def finalizeMembers :
    List (Member × List StepTable) → Except BuildError Unit × List Member
  | [] => (.ok (), [])
  | (m, tables) :: rest =>
    match finalizeTools m.project (m.tools.zip tables) with
    | (.error e, project) => (.error e, { m with project } :: rest.map (·.1))
    | (.ok (), project) =>
      let (result, rest) := finalizeMembers rest
      (result, { m with project } :: rest)

def withProjects (members : List Member) (projects : List Project) : List Member :=
  List.zipWith (fun m project => { m with project }) members projects

def sourceFileCount (members : List Member) : Nat :=
  (members.map (·.project.sourceFiles.length)).foldr (· + ·) 0

def stepCounts (members : List Member) : List (StepKind × Nat) :=
  let steps := members.flatMap fun m => m.project.configurations.flatMap (·.steps)
  StepKind.all.filterMap fun kind =>
    let count := (steps.filter (·.kind = kind)).length
    if count = 0 then none else some (kind, count)

structure Generated where
  result : Except BuildError GenerationStats
  solution : Solution
  files : FileSystem

/-- A generation between its two halves. -/
structure Gathered where
  /-- The members once their sources were found. -/
  discovered : List Member
  /-- The members once their tools had collected. -/
  collected : List Member
  /-- The tables of the tools of each member. -/
  tables : List (List StepTable)
  files : FileSystem

def collect (s : Solution) (fs : FileSystem) : Except Generated Gathered :=
  match discoverMembers fs s.members with
  | (.error e, members) => .error ⟨.error e, { s with members }, fs⟩
  | (.ok (), discovered) =>
    match collectMembers fs discovered with
    | (.error e, members, fs) => .error ⟨.error e, { s with members }, fs⟩
    | (.ok tables, collected, fs) => .ok ⟨discovered, collected, tables, fs⟩

def finalize (s : Solution) (o : Gathered) : Generated :=
  match resolveDependencies (o.collected.map (·.project)) with
  | (.error e, projects) =>
    ⟨.error e, { s with members := withProjects o.collected projects }, o.files⟩
  | (.ok (), projects) =>
    match finalizeMembers ((withProjects o.collected projects).zip o.tables) with
    | (.error e, members) => ⟨.error e, { s with members }, o.files⟩
    | (.ok (), members) =>
      { result := .ok {
          projects := s.members.length
          sourceFiles := sourceFileCount o.discovered
          generatedFiles := sourceFileCount o.collected - sourceFileCount o.discovered
          steps := stepCounts members }
        solution := { s with members }
        files := o.files }

def generate (s : Solution) (fs : FileSystem) : Generated :=
  match s.collect fs with
  | .error g => g
  | .ok o => s.finalize o

end Solution

end BuildSteps
