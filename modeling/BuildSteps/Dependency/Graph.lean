import BuildSteps.Project.Basic

/-!
# Dependency graphs

A graph holds one node per project name, in ascending order of names, and each node the names of the
projects it depends on.
-/

namespace BuildSteps

/-- A project and the projects it depends on, in whichever configuration. -/
structure ProjectNode where
  name : String
  dependencies : List String
  deriving DecidableEq, Repr

namespace ProjectNode

def insertInto (node : ProjectNode) : List ProjectNode → List ProjectNode
  | [] => [node]
  | other :: nodes =>
    if node.name < other.name then node :: other :: nodes
    else if node.name = other.name then node :: nodes
    else other :: node.insertInto nodes

theorem mem_insertInto {node n : ProjectNode} {nodes : List ProjectNode}
    (h : n ∈ node.insertInto nodes) : n = node ∨ n ∈ nodes := by
  induction nodes with
  | nil => simpa [insertInto] using h
  | cons other nodes ih =>
    simp only [insertInto] at h
    split at h
    · simpa using h
    · split at h
      · rcases List.mem_cons.1 h with h | h
        · exact .inl h
        · exact .inr (List.mem_cons_of_mem _ h)
      · rcases List.mem_cons.1 h with h | h
        · exact .inr (h ▸ List.mem_cons_self)
        · exact (ih h).imp id (List.mem_cons_of_mem _)

theorem pairwise_insertInto (node : ProjectNode) {nodes : List ProjectNode}
    (h : nodes.Pairwise fun a b => a.name < b.name) :
    (node.insertInto nodes).Pairwise fun a b => a.name < b.name := by
  induction nodes with
  | nil => simp [insertInto]
  | cons other nodes ih =>
    obtain ⟨before, rest⟩ := List.pairwise_cons.1 h
    simp only [insertInto]
    split
    · next hlt =>
      refine List.pairwise_cons.2 ⟨fun n hn => ?_, h⟩
      rcases List.mem_cons.1 hn with rfl | hn
      · exact hlt
      · exact String.lt_trans hlt (before n hn)
    · split
      · next heq => exact List.pairwise_cons.2 ⟨fun n hn => heq ▸ before n hn, rest⟩
      · next hlt hne =>
        refine List.pairwise_cons.2 ⟨fun n hn => ?_, ih rest⟩
        rcases mem_insertInto hn with rfl | hn
        · grind
        · exact before n hn

end ProjectNode

structure DependencyGraph where
  nodes : List ProjectNode
  ascending : nodes.Pairwise fun a b => a.name < b.name

namespace DependencyGraph

def empty : DependencyGraph := ⟨[], .nil⟩

def insert (graph : DependencyGraph) (node : ProjectNode) : DependencyGraph :=
  ⟨node.insertInto graph.nodes, node.pairwise_insertInto graph.ascending⟩

/-- The node of a project: the dependencies of all its configurations, each once. -/
def nodeOf (project : Project) : ProjectNode where
  name := project.name
  dependencies := [].insertAllLast (project.configurations.flatMap (·.dependencies))

/-- The graph of projects; of two with one name the later counts. -/
def ofProjects (projects : List Project) : DependencyGraph :=
  (projects.map nodeOf).foldl insert empty

def get? (graph : DependencyGraph) (name : String) : Option ProjectNode :=
  graph.nodes.find? (·.name == name)

def size (graph : DependencyGraph) : Nat := graph.nodes.length

def isEmpty (graph : DependencyGraph) : Bool := graph.nodes.isEmpty

def unknownDependency? (graph : DependencyGraph) : Option (String × String) :=
  graph.nodes.findSome? fun node =>
    (node.dependencies.find? fun d => (graph.get? d).isNone).map fun d => (d, node.name)

end DependencyGraph

end BuildSteps
