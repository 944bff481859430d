import BuildSteps.Dependency.Order

/-!
# Dependency resolution

Every configuration takes over the public include paths and exported defines of all projects it
depends on, directly or not, for its own target. Projects are treated in build order; a
configuration that has been treated counts as resolved. On an error the projects treated before it
keep what they have taken over.
-/

namespace BuildSteps

namespace DependencyGraph

def validate (graph : DependencyGraph) : Except BuildError Unit :=
  match graph.unknownDependency? with
  | some (dependency, dependent) => .error (.unknownDependency dependency dependent)
  | none => .ok ()

def buildOrder (graph : DependencyGraph) : Except BuildError (List String) :=
  let order := graph.finish.order
  if order.length = graph.size then .ok order else .error (.circularDependency graph.cycle?)

end DependencyGraph

namespace Resolution

/-- The position of the last project with a name. -/
def indexOf? (projects : List Project) (name : String) : Option Nat :=
  (projects.zipIdx.reverse.find? fun entry => entry.1.name == name).map (·.2)

/-- Visits the projects named in `pending` and, each before what is left of the list, those they
depend on for a target. `seen` holds the positions visited so far; at most `steps` names are
looked at. -/
def visit (projects : List Project) (target : Target) :
    Nat → List Nat → List String → Except BuildError (List Nat)
  | 0, seen, _ => .ok seen
  | _, seen, [] => .ok seen
  | steps + 1, seen, name :: pending =>
    match indexOf? projects name with
    | none => .error (.unknownProject name)
    | some i =>
      if seen.contains i then visit projects target steps seen pending
      else
        match projects[i]?.bind (·.configuration? target) with
        | none => .error (.missingConfiguration name target)
        | some conf => visit projects target steps (seen ++ [i]) (conf.dependencies ++ pending)

/-- How many names a visit can look at: those it starts with and, once for each project, those the
project depends on. -/
def visitBound (projects : List Project) (target : Target) (direct : List String) : Nat :=
  direct.length + (projects.map fun project =>
    ((project.configuration? target).map (·.dependencies.length)).getD 0).foldr (· + ·) 0 + 1

def transitiveDependencies (projects : List Project) (target : Target) (direct : List String) :
    Except BuildError (List Nat) :=
  visit projects target (visitBound projects target direct) [] direct

def configurationsAt (projects : List Project) (target : Target) (indices : List Nat) :
    List Configuration :=
  indices.filterMap fun i => projects[i]?.bind (·.configuration? target)

def resolveConfiguration (projects : List Project) (conf : Configuration) :
    Except BuildError Configuration :=
  match transitiveDependencies projects conf.target conf.dependencies with
  | .error e => .error e
  | .ok indices =>
    let sources := configurationsAt projects conf.target indices
    .ok { conf with
      dependenciesIncludePaths :=
        Path.insertAllLast conf.dependenciesIncludePaths (sources.flatMap (·.includePaths))
      defines := conf.defines.insertAllLast (sources.flatMap (·.exportDefines))
      resolved := true }

def resolveConfigurations (projects : List Project) :
    List Configuration → Except BuildError Unit × List Configuration
  | [] => (.ok (), [])
  | conf :: confs =>
    match resolveConfiguration projects conf with
    | .error e => (.error e, conf :: confs)
    | .ok resolved =>
      let (result, rest) := resolveConfigurations projects confs
      (result, resolved :: rest)

def resolveProject (projects : List Project) (i : Nat) :
    Except BuildError Unit × List Project :=
  match projects[i]? with
  | none => (.ok (), projects)
  | some project =>
    let (result, confs) := resolveConfigurations projects project.configurations
    (result, projects.set i { project with configurations := confs })

def resolveAll : List String → List Project → Except BuildError Unit × List Project
  | [], projects => (.ok (), projects)
  | name :: names, projects =>
    match indexOf? projects name with
    | none => resolveAll names projects
    | some i =>
      match resolveProject projects i with
      | (.error e, projects) => (.error e, projects)
      | (.ok (), projects) => resolveAll names projects

end Resolution

def resolveDependencies (projects : List Project) : Except BuildError Unit × List Project :=
  let graph := DependencyGraph.ofProjects projects
  match graph.validate with
  | .error e => (.error e, projects)
  | .ok () =>
    match graph.buildOrder with
    | .error e => (.error e, projects)
    | .ok order => Resolution.resolveAll order projects

end BuildSteps
