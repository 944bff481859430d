import BuildSteps.Dependency.Graph

/-!
# Build orders

A build order lists each project after all projects it depends on. Of the projects that could come
next, the one with the least name does. Where no such order exists, a cycle is looked for.
-/

namespace BuildSteps.DependencyGraph

/-- How far the search for a build order has come. -/
structure Progress where
  /-- Each node with the number of its dependencies that are still to come. -/
  waiting : List (ProjectNode × Nat)
  /-- The names that could come next, in ascending order. -/
  ready : List String
  /-- The names that have their place. -/
  order : List String
  deriving Repr

def insertName (name : String) : List String → List String
  | [] => [name]
  | other :: names =>
    if name < other then name :: other :: names
    else if name = other then other :: names
    else other :: insertName name names

def Progress.start (graph : DependencyGraph) : Progress where
  waiting := graph.nodes.map fun node => (node, node.dependencies.length)
  ready := (graph.nodes.filter (·.dependencies.isEmpty)).map (·.name)
  order := []

/-- Counts one dependency of a node as done if it is the one that got its place. -/
def settle (current : String) (entry : ProjectNode × Nat) : ProjectNode × Nat :=
  if entry.1.dependencies.contains current then (entry.1, entry.2 - 1) else entry

def Progress.step (s : Progress) : Progress :=
  match s.ready with
  | [] => s
  | current :: others =>
    let released := s.waiting.filter fun entry =>
      entry.1.dependencies.contains current && entry.2 == 1
    { waiting := s.waiting.map (settle current)
      ready := released.foldl (fun names entry => insertName entry.1.name names) others
      order := s.order ++ [current] }

def Progress.run : Nat → Progress → Progress
  | 0, s => s
  | n + 1, s => Progress.run n s.step

/-- The end of the search: each node gets its place at most once, so there are no more steps than
nodes. -/
def finish (graph : DependencyGraph) : Progress :=
  Progress.run graph.size (Progress.start graph)

/-- Looks for a cycle from a name, depth first. `path` holds the names on the way to it and
`visited` those that need no second visit; `depth` bounds how far the search goes down. -/
def cycleFrom (graph : DependencyGraph) :
    Nat → List String → String → List String → Option (List String) × List String
  | 0, _, _, visited => (none, visited)
  | depth + 1, path, name, visited =>
    if path.contains name then (some (path.dropWhile (· != name) ++ [name]), visited)
    else if visited.contains name then (none, visited)
    else
      match graph.get? name with
      | none => (none, name :: visited)
      | some node =>
        node.dependencies.foldl (fun found dependency =>
          match found with
          | (some cycle, visited) => (some cycle, visited)
          | (none, visited) => cycleFrom graph depth (path ++ [name]) dependency visited)
          (none, name :: visited)

/-- The first cycle that a search from each node in turn finds. A way without a repeated name has
at most as many names as there are nodes, one more that is unknown, and the repeated one. -/
def cycle? (graph : DependencyGraph) : Option (List String) :=
  (graph.nodes.foldl (fun found node =>
    match found with
    | (some cycle, visited) => (some cycle, visited)
    | (none, visited) => cycleFrom graph (graph.size + 2) [] node.name visited)
    ((none, []) : Option (List String) × List String)).1

end BuildSteps.DependencyGraph
