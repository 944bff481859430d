import Mathlib.Data.Set.Finite.Basic
import Mathlib.Data.String.Basic
import Mathlib.Logic.Relation
import BuildSteps.Proofs.Dependency.Resolution

/-!
# The least build order

The number that a node waits for is that of its dependencies without a place, so the ready names are
just those that could come next. As the least of them always does, the order that is found is the
least of all, and none is found just when some project depends on itself, directly or not.
-/

namespace BuildSteps

/-! ## 1. Build orders -/

/-- Whether `order` holds each of the names once and every dependency before what depends on it. -/
structure IsBuildOrder (names : List String) (dependsOn : String → String → Prop)
    (order : List String) : Prop where
  perm : order.Perm names
  respects : ∀ {name dependency : String}, dependsOn name dependency →
    order.idxOf dependency < order.idxOf name

namespace IsBuildOrder

variable {names order : List String} {dependsOn : String → String → Prop}

/-- Along a cycle the positions would fall for ever. -/
theorem acyclic (h : IsBuildOrder names dependsOn order) (name : String) :
    ¬ Relation.TransGen dependsOn name name := by
  have hfalls : ∀ {first last : String}, Relation.TransGen dependsOn first last →
      order.idxOf last < order.idxOf first := by
    intro first last hway
    induction hway with
    | single hstep => exact h.respects hstep
    | tail _ hstep ih => exact (h.respects hstep).trans ih
  exact fun hcycle => Nat.lt_irrefl _ (hfalls hcycle)

/-- What depends on something stands behind it, so that all that a name depends on is among those
before it. -/
theorem mem_before {before after : List String} {name dependency : String}
    (h : IsBuildOrder names dependsOn (before ++ name :: after)) (hname : name ∉ before)
    (hdepends : dependsOn name dependency) : dependency ∈ before := by
  have hlt := h.respects hdepends
  rw [List.idxOf_append_of_notMem hname, List.idxOf_cons_self, Nat.add_zero] at hlt
  by_contra hnot
  rw [List.idxOf_append_of_notMem hnot] at hlt
  omega

end IsBuildOrder

/-- Whether the last project with a name depends on another one in some configuration. -/
def DependsOn (projects : List Project) (name dependency : String) : Prop :=
  ∃ project, projects.reverse.find? (·.name == name) = some project ∧
    ∃ conf ∈ project.configurations, dependency ∈ conf.dependencies

namespace ProjectNode

/-- A node that is inserted replaces the one with its name and no other. -/
theorem mem_insertInto_iff {node n : ProjectNode} {nodes : List ProjectNode}
    (ascending : nodes.Pairwise fun a b => a.name < b.name) :
    n ∈ node.insertInto nodes ↔ n = node ∨ n.name ≠ node.name ∧ n ∈ nodes := by
  induction nodes with
  | nil => simp [insertInto]
  | cons other nodes ih =>
    obtain ⟨hother, hrest⟩ := List.pairwise_cons.1 ascending
    -- what stands behind a name that is not less has another name
    have hbehind (h : ¬ other.name < node.name) {m : ProjectNode} (hm : m ∈ nodes) :
        m.name ≠ node.name := fun heq => h (heq ▸ hother m hm)
    rw [insertInto]
    split
    · next hlt =>
      have hne : other.name ≠ node.name := fun heq => String.lt_irrefl _ (heq ▸ hlt)
      have hnot : ¬ other.name < node.name := String.lt_asymm hlt
      grind
    · split
      · next heq =>
        have hnot : ¬ other.name < node.name := heq ▸ String.lt_irrefl _
        grind
      · grind

end ProjectNode

namespace DependencyGraph

def DependsOn (graph : DependencyGraph) (name dependency : String) : Prop :=
  ∃ node ∈ graph.nodes, node.name = name ∧ dependency ∈ node.dependencies

theorem mem_nodes_ofProjects {projects : List Project} {node : ProjectNode} :
    node ∈ (ofProjects projects).nodes ↔
      ∃ project, projects.reverse.find? (·.name == node.name) = some project ∧
        node = nodeOf project := by
  -- from the last project to the first, since a later one takes the place of an earlier one
  induction projects using List.reverseRecOn with
  | nil => simp [ofProjects, empty]
  | append_singleton projects project ih =>
    have hsnoc : ofProjects (projects ++ [project]) =
        (ofProjects projects).insert (nodeOf project) := by
      rw [ofProjects, List.map_append, List.foldl_append]
      rfl
    rw [hsnoc, insert, ProjectNode.mem_insertInto_iff (ofProjects projects).ascending, ih,
      List.reverse_append, List.reverse_singleton, List.singleton_append, List.find?_cons]
    by_cases hname : project.name = node.name
    · rw [beq_iff_eq.2 hname]
      simp only [Option.some.injEq, exists_eq_left']
      exact ⟨fun h => h.elim id fun h => absurd hname.symm h.1, .inl⟩
    · rw [beq_eq_false_iff_ne.2 hname]
      refine ⟨fun h => ?_, fun h => .inr ⟨fun h => hname h.symm, h⟩⟩
      rcases h with rfl | h
      · exact absurd rfl hname
      · exact h.2

theorem dependsOn_ofProjects {projects : List Project} {name dependency : String} :
    (ofProjects projects).DependsOn name dependency ↔
      BuildSteps.DependsOn projects name dependency := by
  have hdependencies (project : Project) : dependency ∈ (nodeOf project).dependencies ↔
      ∃ conf ∈ project.configurations, dependency ∈ conf.dependencies := by
    rw [nodeOf, List.mem_insertAllLast, List.mem_flatMap]
    exact ⟨fun h => h.resolve_left List.not_mem_nil, .inr⟩
  constructor
  · rintro ⟨node, hnode, rfl, hmem⟩
    obtain ⟨project, hproject, rfl⟩ := mem_nodes_ofProjects.1 hnode
    exact ⟨project, hproject, (hdependencies project).1 hmem⟩
  · rintro ⟨project, hproject, hmem⟩
    have hfound := List.find?_some hproject
    have hname : project.name = name := beq_iff_eq.1 hfound
    refine ⟨nodeOf project, mem_nodes_ofProjects.2 ⟨project, ?_, rfl⟩, hname,
      (hdependencies project).2 hmem⟩
    rwa [← hname] at hproject

theorem dependsOn_ofProjects_eq {projects : List Project} :
    (ofProjects projects).DependsOn = BuildSteps.DependsOn projects := by
  funext name dependency
  exact propext dependsOn_ofProjects

theorem nodup_dependencies_ofProjects {projects : List Project} {node : ProjectNode}
    (h : node ∈ (ofProjects projects).nodes) : node.dependencies.Nodup := by
  obtain ⟨project, -, rfl⟩ := mem_nodes_ofProjects.1 h
  rw [nodeOf, List.insertAllLast_eq, List.nil_append]
  exact List.nodup_eraseDups _

theorem get?_eq_none_iff {graph : DependencyGraph} {name : String} :
    graph.get? name = none ↔ name ∉ graph.names := by
  rw [get?, List.find?_eq_none, names, List.mem_map]
  simp only [beq_iff_eq, not_exists, not_and]

theorem validate_ok_iff {graph : DependencyGraph} :
    graph.validate = .ok () ↔
      ∀ name dependency, graph.DependsOn name dependency → dependency ∈ graph.names := by
  have hnone : graph.validate = .ok () ↔ graph.unknownDependency? = none := by
    rw [validate]
    cases graph.unknownDependency? <;> simp
  rw [hnone, unknownDependency?, List.findSome?_eq_none_iff]
  simp only [Option.map_eq_none_iff, List.find?_eq_none, Option.isNone_iff_eq_none,
    get?_eq_none_iff, not_not]
  constructor
  · rintro h name dependency ⟨node, hnode, -, hmem⟩
    exact h node hnode dependency hmem
  · exact fun h node hnode dependency hmem => h node.name dependency ⟨node, hnode, rfl, hmem⟩

theorem mem_names_of_validate {graph : DependencyGraph} (valid : graph.validate = .ok ())
    {name dependency : String} (h : graph.DependsOn name dependency) :
    dependency ∈ graph.names :=
  validate_ok_iff.1 valid name dependency h

/-! ## 2. What could come next -/

/-- Whether a name can follow those in `order`: it has no place, and all that it depends on has. -/
def Available (graph : DependencyGraph) (order : List String) (name : String) : Prop :=
  name ∉ order ∧ ∃ node ∈ graph.nodes, node.name = name ∧ ∀ d ∈ node.dependencies, d ∈ order

def missing (order : List String) (node : ProjectNode) : Nat :=
  (node.dependencies.filter fun d => d ∉ order).length

theorem missing_eq_zero {order : List String} {node : ProjectNode} :
    missing order node = 0 ↔ ∀ d ∈ node.dependencies, d ∈ order := by
  simp [missing, List.filter_eq_nil_iff]

/-- A place for one more name settles that dependency and no other. -/
theorem missing_append {order : List String} {current : String} (hcurrent : current ∉ order)
    {node : ProjectNode} (hnodup : node.dependencies.Nodup) :
    missing (order ++ [current]) node =
      if current ∈ node.dependencies then missing order node - 1 else missing order node := by
  have herase : (node.dependencies.filter fun d => d ∉ order ++ [current]) =
      (node.dependencies.filter fun d => d ∉ order).erase current := by
    rw [(hnodup.filter _).erase_eq_filter, List.filter_filter]
    apply List.filter_congr
    intro d _
    by_cases hd : d = current <;> simp [hd]
  rw [missing, herase, List.length_erase, missing]
  simp only [List.mem_filter, decide_eq_true_eq, hcurrent, not_false_eq_true, and_true]

theorem mem_insertName {name other : String} {names : List String} :
    other ∈ insertName name names ↔ other = name ∨ other ∈ names := by
  induction names with
  | nil => simp [insertName]
  | cons first names ih =>
    rw [insertName]
    split
    · simp
    · split
      · next heq => simp [heq]
      · rw [List.mem_cons, ih, List.mem_cons, or_left_comm]

theorem pairwise_insertName (name : String) {names : List String} (h : names.Pairwise (· < ·)) :
    (insertName name names).Pairwise (· < ·) := by
  induction names with
  | nil => simp [insertName]
  | cons first names ih =>
    obtain ⟨hfirst, hrest⟩ := List.pairwise_cons.1 h
    rw [insertName]
    split
    · next hlt => exact .cons (by grind) h
    · split
      · exact h
      · next hlt hne =>
        have hgt : first < name := by grind
        refine .cons (fun other hother => ?_) (ih hrest)
        rcases mem_insertName.1 hother with rfl | hmem
        · exact hgt
        · exact hfirst other hmem

theorem foldl_insertName (added : List String) {names : List String}
    (h : names.Pairwise (· < ·)) :
    (added.foldl (fun names name => insertName name names) names).Pairwise (· < ·) ∧
      ∀ name, name ∈ added.foldl (fun names name => insertName name names) names ↔
        name ∈ added ∨ name ∈ names := by
  induction added generalizing names with
  | nil => exact ⟨h, by simp⟩
  | cons first added ih =>
    obtain ⟨hpairwise, hmem⟩ := ih (pairwise_insertName first h)
    refine ⟨hpairwise, fun name => ?_⟩
    rw [List.foldl_cons, hmem, mem_insertName, List.mem_cons, or_left_comm, or_assoc]

/-! ## 3. The search -/

/-- Orders in which each name is the least that could follow those before it. -/
inductive Greedy (graph : DependencyGraph) : List String → Prop
  | nil : Greedy graph []
  | snoc {order : List String} {name : String} : Greedy graph order →
    graph.Available order name → (∀ other, graph.Available order other → ¬ other < name) →
    Greedy graph (order ++ [name])

/-- What the places given so far determine: all of the search. -/
structure Progress.Exact (graph : DependencyGraph) (s : Progress) : Prop where
  waiting : s.waiting = graph.nodes.map fun node => (node, missing s.order node)
  ready : ∀ name, name ∈ s.ready ↔ graph.Available s.order name
  ascending : s.ready.Pairwise (· < ·)
  greedy : graph.Greedy s.order

namespace Progress

variable {graph : DependencyGraph} {s : Progress}

theorem exact_start (graph : DependencyGraph) : (start graph).Exact graph where
  waiting := by
    apply List.map_congr_left
    intro node _
    simp [missing, start]
  ready name := by
    simp only [start, Available, List.mem_map, List.mem_filter, List.isEmpty_iff,
      List.not_mem_nil, not_false_eq_true, true_and, imp_false, ← List.eq_nil_iff_forall_not_mem]
    constructor
    · rintro ⟨node, ⟨hnode, hnone⟩, hname⟩
      exact ⟨node, hnode, hname, hnone⟩
    · rintro ⟨node, hnode, hname, hnone⟩
      exact ⟨node, ⟨hnode, hnone⟩, hname⟩
  ascending := List.pairwise_map.2 (graph.ascending.sublist List.filter_sublist)
  greedy := .nil

/-- What a step releases are the names that can follow the new one and could not follow without. -/
theorem Exact.mem_released (h : s.Exact graph) {current name : String} :
    name ∈ s.released current ↔ ∃ node ∈ graph.nodes, node.name = name ∧
      current ∈ node.dependencies ∧ missing s.order node = 1 := by
  rw [released, h.waiting, List.filter_map, List.map_map]
  simp only [List.mem_map, List.mem_filter, Function.comp_apply, Bool.and_eq_true, beq_iff_eq,
    List.contains_iff_mem]
  constructor
  · rintro ⟨node, ⟨hnode, hcurrent, hone⟩, hname⟩
    exact ⟨node, hnode, hname, hcurrent, hone⟩
  · rintro ⟨node, hnode, hname, hcurrent, hone⟩
    exact ⟨node, ⟨hnode, hcurrent, hone⟩, hname⟩

/-- Behind one more name can come what could come before, and what waited for that name alone. -/
theorem Exact.available_append (h : s.Exact graph) (hsound : s.Sound graph)
    (hnodup : ∀ node ∈ graph.nodes, node.dependencies.Nodup) {current : String}
    {others : List String} (hready : s.ready = current :: others) (name : String) :
    graph.Available (s.order ++ [current]) name ↔ name ∈ s.released current ∨ name ∈ others := by
  have hcurrent : current ∉ s.order :=
    ((h.ready current).1 (hready ▸ List.mem_cons_self)).1
  constructor
  · rintro ⟨hname, node, hnode, rfl, hall⟩
    rw [List.mem_append, List.mem_singleton, not_or] at hname
    have hzero := missing_eq_zero.2 hall
    rw [missing_append hcurrent (hnodup node hnode)] at hzero
    by_cases hdepends : current ∈ node.dependencies
    -- it lacked the new name, and nothing else
    · rw [if_pos hdepends] at hzero
      have hsome : missing s.order node ≠ 0 := fun h0 =>
        hcurrent (missing_eq_zero.1 h0 current hdepends)
      exact .inl (h.mem_released.2 ⟨node, hnode, rfl, hdepends, by omega⟩)
    -- it lacked nothing before
    · rw [if_neg hdepends] at hzero
      have hmem := (h.ready node.name).2 ⟨hname.1, node, hnode, rfl, missing_eq_zero.1 hzero⟩
      rw [hready] at hmem
      exact .inr ((List.mem_cons.1 hmem).resolve_left hname.2)
  · rintro (hreleased | hother)
    · have hfresh := hsound.released_fresh hreleased
      obtain ⟨node, hnode, rfl, hdepends, hone⟩ := h.mem_released.1 hreleased
      rw [hready, List.mem_append, List.mem_cons] at hfresh
      refine ⟨by simp; tauto, node, hnode, rfl, missing_eq_zero.1 ?_⟩
      rw [missing_append hcurrent (hnodup node hnode), if_pos hdepends, hone]
    · obtain ⟨hname, node, hnode, rfl, hall⟩ :=
        (h.ready name).1 (hready ▸ List.mem_cons_of_mem current hother)
      have hascending := h.ascending
      rw [hready] at hascending
      have hne : node.name ≠ current := fun heq =>
        String.lt_irrefl _ (heq ▸ (List.pairwise_cons.1 hascending).1 _ hother)
      exact ⟨by simp [hname, hne], node, hnode, rfl, fun d hd => List.mem_append_left _ (hall d hd)⟩

theorem Exact.step (h : s.Exact graph) (hsound : s.Sound graph)
    (hnodup : ∀ node ∈ graph.nodes, node.dependencies.Nodup) : s.step.Exact graph := by
  match hready : s.ready with
  | [] => rwa [Progress.step, hready]
  | current :: others =>
    have hascending := h.ascending
    rw [hready] at hascending
    obtain ⟨hleast, hothers⟩ := List.pairwise_cons.1 hascending
    have havailable := (h.ready current).1 (hready ▸ List.mem_cons_self)
    obtain ⟨hpairwise, hmem⟩ := foldl_insertName (s.released current) hothers
    rw [step_of_ready hready]
    refine ⟨?_, fun name => ?_, hpairwise, .snoc h.greedy havailable fun other hother => ?_⟩
    · rw [h.waiting, List.map_map]
      apply List.map_congr_left
      intro node hnode
      rw [Function.comp_apply, missing_append havailable.1 (hnodup node hnode), settle]
      simp only [List.contains_iff_mem]
      split <;> rfl
    · rw [hmem, h.available_append hsound hnodup hready]
    -- the first of the ready names is the least that is available
    · rw [← h.ready, hready] at hother
      rcases List.mem_cons.1 hother with rfl | hother
      · exact String.lt_irrefl _
      · exact String.lt_asymm (hleast other hother)

theorem Exact.run (h : s.Exact graph) (hsound : s.Sound graph)
    (hnodup : ∀ node ∈ graph.nodes, node.dependencies.Nodup) (n : Nat) :
    (Progress.run n s).Exact graph := by
  induction n generalizing s with
  | zero => exact h
  | succ n ih => exact ih (h.step hsound hnodup) hsound.step

theorem run_of_idle (h : s.ready = []) (n : Nat) : run n s = s := by
  have hstop : s.step = s := by rw [Progress.step, h]
  induction n with
  | zero => rfl
  | succ n ih => rw [run, hstop, ih]

theorem run_length (s : Progress) (n : Nat) :
    (run n s).order.length = s.order.length + n ∨ (run n s).ready = [] := by
  induction n generalizing s with
  | zero => exact .inl rfl
  | succ n ih =>
    match hready : s.ready with
    | [] =>
      rw [run_of_idle hready]
      exact .inr hready
    | current :: others =>
      rw [run]
      rcases ih s.step with hlength | hnone
      · left
        rw [hlength, step_of_ready hready, List.length_append, List.length_singleton]
        omega
      · exact .inr hnone

end Progress

/-! ## 4. The order that is found -/

variable {graph : DependencyGraph}

theorem Greedy.available {order before after : List String} {name : String}
    (h : graph.Greedy order) (horder : order = before ++ name :: after) :
    graph.Available before name := by
  induction h generalizing after with
  | nil => simp at horder
  | @snoc order last _ hlast _ ih =>
    rcases List.eq_nil_or_concat after with rfl | ⟨between, final, rfl⟩
    · obtain ⟨rfl, hname⟩ := List.append_inj' horder rfl
      obtain rfl := List.singleton_inj.1 hname
      exact hlast
    · rw [List.concat_eq_append, ← List.cons_append, ← List.append_assoc] at horder
      exact ih (List.append_inj' horder rfl).1

/-- An order of all names in which each could follow those before it is a build order. -/
theorem Greedy.isBuildOrder {order : List String} (h : graph.Greedy order)
    (hperm : order.Perm graph.names) : IsBuildOrder graph.names graph.DependsOn order where
  perm := hperm
  respects := by
    rintro name dependency ⟨node, hnode, rfl, hdependency⟩
    have hmem : node.name ∈ order := hperm.mem_iff.2 (List.mem_map_of_mem hnode)
    obtain ⟨before, after, rfl⟩ := List.append_of_mem hmem
    obtain ⟨hfresh, other, hother, hname, hall⟩ := h.available rfl
    -- one name, one node
    have hsame : other = node :=
      List.inj_on_of_nodup_map graph.names_nodup hother hnode hname
    have hbefore : dependency ∈ before := hall dependency (hsame ▸ hdependency)
    rw [List.idxOf_append_of_mem hbefore, List.idxOf_append_of_notMem hfresh]
    exact Nat.lt_add_right _ (List.idxOf_lt_length_iff.2 hbefore)

/-- Where another build order leaves a greedy one, it goes on with a greater name. -/
theorem Greedy.least {order other : List String} (h : graph.Greedy order)
    (hother : IsBuildOrder graph.names graph.DependsOn other) :
    order <+: other ∨ ∃ before name next after rest,
      order = before ++ name :: after ∧ other = before ++ next :: rest ∧ name < next := by
  induction h with
  | nil => exact .inl List.nil_prefix
  | @snoc order name _ havailable hleast ih =>
    rcases ih with ⟨rest, rfl⟩ | ⟨before, name', next, after, rest, rfl, hrest, hlt⟩
    · match rest with
      | [] =>
        -- the other order has all names, and one more was available
        obtain ⟨hfresh, node, hnode, rfl, -⟩ := havailable
        rw [List.append_nil] at hother
        exact absurd (hother.perm.mem_iff.2 (List.mem_map_of_mem hnode)) hfresh
      | next :: rest =>
        have hnodup : (order ++ next :: rest).Nodup :=
          hother.perm.nodup_iff.2 graph.names_nodup
        have hfresh : next ∉ order := fun hmem =>
          (List.nodup_append.1 hnodup).2.2 next hmem next List.mem_cons_self rfl
        -- the next name of the other order was available as well
        have hnext : graph.Available order next := by
          have hmem : next ∈ graph.names := hother.perm.mem_iff.1 (by simp)
          obtain ⟨node, hnode, rfl⟩ := List.mem_map.1 hmem
          exact ⟨hfresh, node, hnode, rfl, fun d hd =>
            hother.mem_before hfresh ⟨node, hnode, rfl, hd⟩⟩
        by_cases heq : name = next
        · exact .inl ⟨rest, by rw [heq, List.append_assoc, List.singleton_append]⟩
        · have hnot := hleast next hnext
          exact .inr ⟨order, name, next, [], rest, rfl, rfl, by grind⟩
    · exact .inr ⟨before, name', next, after ++ [name], rest,
        by rw [List.append_assoc, List.cons_append], hrest, hlt⟩

theorem Greedy.eq_or_lex {order other : List String} (h : graph.Greedy order)
    (hperm : order.Perm graph.names) (hother : IsBuildOrder graph.names graph.DependsOn other) :
    order = other ∨ List.Lex (· < ·) order other := by
  rcases h.least hother with hstart | ⟨before, name, next, after, rest, rfl, rfl, hlt⟩
  · exact .inl (hstart.eq_of_length (hperm.trans hother.perm.symm).length_eq)
  · exact .inr (List.Lex.append_left _ (.rel hlt) before)

/-- Where nothing is available and no node depends on itself along a way, every node has its
place. -/
theorem mem_of_none_available (closed : ∀ {name dependency : String},
      graph.DependsOn name dependency → dependency ∈ graph.names)
    (acyclic : ∀ name, ¬ Relation.TransGen graph.DependsOn name name) {order : List String}
    (hnone : ∀ name, ¬ graph.Available order name) {name : String} (hname : name ∈ graph.names) :
    name ∈ order := by
  -- among the finitely many nodes without a place, one depends on no other
  let below (a b : {name // name ∈ graph.names}) : Prop :=
    Relation.TransGen graph.DependsOn b.1 a.1
  have : IsTrans _ below := ⟨fun _ _ _ hab hbc => hbc.trans hab⟩
  have : Std.Irrefl below := ⟨fun a => acyclic a.1⟩
  have : Finite {name // name ∈ graph.names} := graph.names.finite_toSet.to_subtype
  by_contra hnot
  obtain ⟨⟨least, hleast⟩, hmissing, hmin⟩ :=
    (Finite.wellFounded_of_trans_of_irrefl below).has_min {a | a.1 ∉ order} ⟨⟨name, hname⟩, hnot⟩
  obtain ⟨node, hnode, rfl⟩ := List.mem_map.1 hleast
  refine hnone node.name ⟨hmissing, node, hnode, rfl, fun d hd => ?_⟩
  have hdepends : graph.DependsOn node.name d := ⟨node, hnode, rfl, hd⟩
  by_contra hd'
  exact hmin ⟨d, closed hdepends⟩ hd' (.single hdepends)

theorem buildOrder_ok_iff {order : List String} :
    graph.buildOrder = .ok order ↔
      graph.finish.order = order ∧ graph.finish.order.length = graph.size := by
  rw [buildOrder]
  split
  · next hlength =>
    rw [Except.ok.injEq]
    exact ⟨fun h => ⟨h, hlength⟩, And.left⟩
  · next hlength => exact ⟨fun h => (by cases h), fun h => absurd h.2 hlength⟩

theorem exact_finish (hnodup : ∀ node ∈ graph.nodes, node.dependencies.Nodup) :
    graph.finish.Exact graph :=
  (Progress.exact_start graph).run (Progress.sound_start graph) hnodup graph.size

/-- A search that runs out of ready names without a cycle has placed all names. -/
theorem exists_buildOrder (hnodup : ∀ node ∈ graph.nodes, node.dependencies.Nodup)
    (closed : ∀ {name dependency : String},
      graph.DependsOn name dependency → dependency ∈ graph.names)
    (acyclic : ∀ name, ¬ Relation.TransGen graph.DependsOn name name) :
    ∃ order, graph.buildOrder = .ok order := by
  refine ⟨_, buildOrder_ok_iff.2 ⟨rfl, ?_⟩⟩
  have hexact := exact_finish hnodup
  rcases Progress.run_length (Progress.start graph) graph.size with hlength | hnone
  · exact hlength.trans (Nat.zero_add _)
  · have hready : graph.finish.ready = [] := hnone
    have hnot (name : String) : ¬ graph.Available graph.finish.order name := by
      rw [← hexact.ready, hready]
      exact List.not_mem_nil
    have hsound : graph.finish.Sound graph := (Progress.sound_start graph).run graph.size
    have hsub : graph.names ⊆ graph.finish.order :=
      fun _ => mem_of_none_available closed acyclic hnot
    have hsub' : graph.finish.order ⊆ graph.names :=
      fun _ hmem => hsound.mem_names (List.mem_append_left _ hmem)
    have hle := (List.subperm_of_subset graph.names_nodup hsub).length_le
    have hge := (List.subperm_of_subset (List.nodup_append.1 hsound.nodup).1 hsub').length_le
    rw [Nat.le_antisymm hge hle, names, List.length_map]
    rfl

/-- **The least build order is found, unless there is none.** Where every dependency names a
project, the search succeeds just when no project depends on itself, directly or not. Its order
holds every name once and each after all that it depends on, and comes first, name by name, among
all orders that do. -/
theorem buildOrder_least {projects : List Project}
    (valid : (ofProjects projects).validate = .ok ()) :
    let names := (ofProjects projects).names
    let dependsOn := BuildSteps.DependsOn projects
    ((∃ order, (ofProjects projects).buildOrder = .ok order) ↔
      ∀ name, ¬ Relation.TransGen dependsOn name name) ∧
    ∀ order, (ofProjects projects).buildOrder = .ok order →
      IsBuildOrder names dependsOn order ∧
      ∀ other, IsBuildOrder names dependsOn other →
        order = other ∨ List.Lex (· < ·) order other := by
  intro names dependsOn
  have hdepends : dependsOn = (ofProjects projects).DependsOn := dependsOn_ofProjects_eq.symm
  have hnodup : ∀ node ∈ (ofProjects projects).nodes, node.dependencies.Nodup :=
    fun _ => nodup_dependencies_ofProjects
  have hfound : ∀ order, (ofProjects projects).buildOrder = .ok order →
      (ofProjects projects).Greedy order := by
    intro order h
    rw [← (buildOrder_ok_iff.1 h).1]
    exact (exact_finish hnodup).greedy
  rw [hdepends]
  refine ⟨⟨?_, exists_buildOrder hnodup (mem_names_of_validate valid)⟩, fun order h => ⟨?_, ?_⟩⟩
  · rintro ⟨order, h⟩
    exact ((hfound order h).isBuildOrder (buildOrder_perm h)).acyclic
  · exact (hfound order h).isBuildOrder (buildOrder_perm h)
  · exact fun other => (hfound order h).eq_or_lex (buildOrder_perm h)

theorem buildOrder_least_diamond :
    let graph := ofProjects Resolution.diamond
    let names := graph.names
    let dependsOn := BuildSteps.DependsOn Resolution.diamond
    graph.validate = .ok () ∧ graph.buildOrder = .ok ["base", "left", "right", "app"] ∧
      (∀ name, ¬ Relation.TransGen dependsOn name name) ∧
      IsBuildOrder names dependsOn ["base", "left", "right", "app"] ∧
      ∀ other, IsBuildOrder names dependsOn other →
        ["base", "left", "right", "app"] = other ∨
          List.Lex (· < ·) ["base", "left", "right", "app"] other := by
  intro graph names dependsOn
  have valid : graph.validate = .ok () := by decide +kernel
  have order : graph.buildOrder = .ok ["base", "left", "right", "app"] := by decide +kernel
  obtain ⟨hfound, hleast⟩ := buildOrder_least valid
  exact ⟨valid, order, hfound.1 ⟨_, order⟩, hleast _ order⟩

end DependencyGraph

end BuildSteps
