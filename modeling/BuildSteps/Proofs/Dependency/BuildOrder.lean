import Mathlib.Data.List.Nodup
import Mathlib.Data.List.Perm.Subperm
import BuildSteps.Dependency.Resolution

/-!
# What the search for a build order keeps

A name that is ready or has its place belongs to a node without dependencies that are still to come,
and no name is there twice. A search that places as many names as there are nodes has placed all of
them.
-/

namespace BuildSteps

namespace ProjectNode

-- a node with a name that is there takes the place of the other
theorem name_mem_insertInto {node : ProjectNode} {nodes : List ProjectNode} {name : String} :
    name ∈ (node.insertInto nodes).map (·.name) ↔
      name = node.name ∨ name ∈ nodes.map (·.name) := by
  induction nodes with
  | nil => simp [insertInto]
  | cons other nodes ih =>
    rw [insertInto]
    split
    · simp
    · split
      · next heq => simp [heq]
      · rw [List.map_cons, List.mem_cons, ih, List.map_cons, List.mem_cons, or_left_comm]

end ProjectNode

namespace DependencyGraph

/-! ## 1. The nodes -/

def names (graph : DependencyGraph) : List String := graph.nodes.map (·.name)

theorem names_nodup (graph : DependencyGraph) : graph.names.Nodup := by
  rw [names, List.Nodup, List.pairwise_map]
  refine graph.ascending.imp fun hlt heq => ?_
  rw [heq] at hlt
  exact String.lt_irrefl _ hlt

theorem mem_names_ofProjects {projects : List Project} {name : String} :
    name ∈ (ofProjects projects).names ↔ name ∈ projects.map (·.name) := by
  -- the nodes are inserted one after the other into a graph that grows
  have hfold : ∀ (nodes : List ProjectNode) (graph : DependencyGraph),
      name ∈ (nodes.foldl insert graph).names ↔
        name ∈ graph.names ∨ name ∈ nodes.map (·.name) := by
    intro nodes
    induction nodes with
    | nil => simp
    | cons node nodes ih =>
      intro graph
      rw [List.foldl_cons, ih, List.map_cons, List.mem_cons, ← or_assoc]
      apply or_congr_left
      rw [names, insert, ProjectNode.name_mem_insertInto, or_comm]
      rfl
  rw [ofProjects, hfold, List.map_map]
  simp [names, empty, nodeOf, Function.comp_def]

/-! ## 2. One step -/

theorem insertName_perm {name : String} {names : List String} (hnew : name ∉ names) :
    (insertName name names).Perm (name :: names) := by
  induction names with
  | nil => exact .refl _
  | cons other names ih =>
    rw [insertName]
    split
    · exact .refl _
    -- the case of an equal name is excluded
    · rw [if_neg fun h : name = other => hnew (h ▸ List.mem_cons_self)]
      exact ((ih fun h => hnew (List.mem_cons_of_mem _ h)).cons other).trans (.swap _ _ _)

theorem foldl_insertName_perm {added names : List String} (hadded : added.Nodup)
    (hnew : ∀ name ∈ added, name ∉ names) :
    (added.foldl (fun names name => insertName name names) names).Perm (added ++ names) := by
  induction added generalizing names with
  | nil => exact .refl _
  | cons name added ih =>
    obtain ⟨hname, hrest⟩ := List.nodup_cons.1 hadded
    have hperm := insertName_perm (hnew name List.mem_cons_self)
    -- the first name has been inserted, and the others differ from it
    have hfree : ∀ other ∈ added, other ∉ insertName name names := by
      intro other hother hmem
      rcases List.mem_cons.1 (hperm.mem_iff.1 hmem) with rfl | hmem
      · exact hname hother
      · exact hnew other (List.mem_cons_of_mem _ hother) hmem
    rw [List.foldl_cons]
    exact ((ih hrest hfree).trans (hperm.append_left added)).trans List.perm_middle

/-- What holds between any two steps of the search in a graph. -/
structure Progress.Sound (graph : DependencyGraph) (s : Progress) : Prop where
  /-- The nodes stay those of the graph; only the numbers change. -/
  nodes : s.waiting.map (·.1) = graph.nodes
  /-- Ready and placed names are those of nodes that wait for nothing. -/
  settled : ∀ name ∈ s.order ++ s.ready, ∃ entry ∈ s.waiting, entry.1.name = name ∧ entry.2 = 0
  nodup : (s.order ++ s.ready).Nodup

namespace Progress

variable {graph : DependencyGraph} {s : Progress}

theorem Sound.names_nodup (h : s.Sound graph) : (s.waiting.map (·.1.name)).Nodup := by
  have hnodup := graph.names_nodup
  rwa [names, ← h.nodes, List.map_map] at hnodup

/-- A node that still waits for something is neither ready nor placed. -/
theorem Sound.not_mem (h : s.Sound graph) {entry : ProjectNode × Nat} (hentry : entry ∈ s.waiting)
    (hwaits : entry.2 ≠ 0) : entry.1.name ∉ s.order ++ s.ready := by
  intro hmem
  obtain ⟨other, hother, hname, hzero⟩ := h.settled _ hmem
  rw [List.inj_on_of_nodup_map h.names_nodup hother hentry hname] at hzero
  exact hwaits hzero

theorem Sound.mem_names (h : s.Sound graph) {name : String} (hmem : name ∈ s.order ++ s.ready) :
    name ∈ graph.names := by
  obtain ⟨entry, hentry, rfl, -⟩ := h.settled name hmem
  rw [names, ← h.nodes, List.map_map]
  exact List.mem_map_of_mem hentry

theorem sound_start (graph : DependencyGraph) : (start graph).Sound graph where
  nodes := by simp [start, Function.comp_def]
  settled := by
    intro name hmem
    simp only [start, List.nil_append, List.mem_map, List.mem_filter] at hmem
    obtain ⟨node, ⟨hnode, hnone⟩, rfl⟩ := hmem
    refine ⟨(node, node.dependencies.length), List.mem_map_of_mem hnode, rfl, ?_⟩
    rw [List.isEmpty_iff.1 hnone]
    rfl
  nodup := graph.names_nodup.sublist (List.filter_sublist.map _)

def released (s : Progress) (current : String) : List String :=
  (s.waiting.filter fun entry =>
    entry.1.dependencies.contains current && entry.2 == 1).map (·.1.name)

theorem step_of_ready {current : String} {others : List String} (h : s.ready = current :: others) :
    s.step = {
      waiting := s.waiting.map (settle current)
      ready := (s.released current).foldl (fun names name => insertName name names) others
      order := s.order ++ [current] } := by
  rw [Progress.step, h, released, List.foldl_map]

theorem mem_released {current name : String} (h : name ∈ s.released current) :
    ∃ entry ∈ s.waiting, entry.1.name = name ∧ entry.1.dependencies.contains current = true ∧
      entry.2 = 1 := by
  obtain ⟨entry, hentry, rfl⟩ := List.mem_map.1 h
  obtain ⟨hmem, hreleased⟩ := List.mem_filter.1 hentry
  rw [Bool.and_eq_true, beq_iff_eq] at hreleased
  exact ⟨entry, hmem, rfl, hreleased⟩

/-- A released node was neither ready nor placed before. -/
theorem Sound.released_fresh (h : s.Sound graph) {current name : String}
    (hname : name ∈ s.released current) : name ∉ s.order ++ s.ready := by
  obtain ⟨entry, hentry, rfl, -, hone⟩ := mem_released hname
  exact h.not_mem hentry (by omega)

/-- Up to their order, the names after a step are those before it and the released ones. -/
theorem Sound.step_perm (h : s.Sound graph) {current : String} {others : List String}
    (hready : s.ready = current :: others) :
    (s.step.order ++ s.step.ready).Perm (s.released current ++ (s.order ++ s.ready)) := by
  have hnodup : (s.released current).Nodup :=
    h.names_nodup.sublist (List.filter_sublist.map _)
  -- what is released waited until now
  have hnew : ∀ name ∈ s.released current, name ∉ others := fun name hname hmem =>
    h.released_fresh hname (List.mem_append_right _ (hready ▸ List.mem_cons_of_mem _ hmem))
  rw [step_of_ready hready, hready]
  refine ((foldl_insertName_perm hnodup hnew).append_left _).trans ?_
  rw [List.append_cons s.order current others, ← List.append_assoc, ← List.append_assoc]
  exact List.perm_append_comm.append_right others

@[simp] theorem settle_fst (current : String) (entry : ProjectNode × Nat) :
    (settle current entry).1 = entry.1 := by
  rw [settle]
  split <;> rfl

theorem settle_of_zero (current : String) {entry : ProjectNode × Nat} (h : entry.2 = 0) :
    (settle current entry).2 = 0 := by
  rw [settle]
  split
  · rw [h]
  · exact h

theorem Sound.step (h : s.Sound graph) : s.step.Sound graph := by
  match hready : s.ready with
  | [] => rwa [Progress.step, hready]
  | current :: others =>
    have hperm := h.step_perm hready
    refine ⟨?_, fun name hmem => ?_, ?_⟩
    · rw [step_of_ready hready, List.map_map, ← h.nodes]
      exact List.map_congr_left fun entry _ => settle_fst current entry
    · rw [step_of_ready hready]
      rcases List.mem_append.1 (hperm.mem_iff.1 hmem) with hnew | hold
      -- released: it waited for one dependency, and that is settled now
      · obtain ⟨entry, hentry, rfl, hdepends, hone⟩ := mem_released hnew
        refine ⟨settle current entry, List.mem_map_of_mem hentry, by rw [settle_fst], ?_⟩
        rw [settle, if_pos hdepends, hone]
      -- ready or placed before: its number is zero and stays so
      · obtain ⟨entry, hentry, rfl, hzero⟩ := h.settled name hold
        exact ⟨settle current entry, List.mem_map_of_mem hentry, by rw [settle_fst],
          settle_of_zero current hzero⟩
    · have hnodup : (s.released current).Nodup :=
        h.names_nodup.sublist (List.filter_sublist.map _)
      refine hperm.nodup_iff.2 (List.nodup_append.2 ⟨hnodup, h.nodup, fun a ha b hb hab => ?_⟩)
      exact h.released_fresh ha (hab ▸ hb)

theorem Sound.run (h : s.Sound graph) (n : Nat) : (Progress.run n s).Sound graph := by
  induction n generalizing s with
  | zero => exact h
  | succ n ih => exact ih h.step

end Progress

/-! ## 3. The order -/

/-- A build order holds the name of every node once and no other. -/
theorem buildOrder_perm {graph : DependencyGraph} {order : List String}
    (h : graph.buildOrder = .ok order) : order.Perm graph.names := by
  have hsound : graph.finish.Sound graph := (Progress.sound_start graph).run graph.size
  unfold buildOrder at h
  simp only at h
  split at h
  · next hlength =>
    obtain rfl := Except.ok.inj h
    -- as many different names as there are nodes, all of them names of nodes
    have hnodup := (List.nodup_append.1 hsound.nodup).1
    have hsub : graph.finish.order ⊆ graph.names :=
      fun name hname => hsound.mem_names (List.mem_append_left _ hname)
    refine (List.subperm_of_subset hnodup hsub).perm_of_length_le ?_
    rw [hlength, names, List.length_map]
    exact Nat.le_refl _
  · cases h

theorem buildOrder_nodup {graph : DependencyGraph} {order : List String}
    (h : graph.buildOrder = .ok order) : order.Nodup :=
  (buildOrder_perm h).nodup_iff.2 graph.names_nodup

theorem mem_buildOrder {projects : List Project} {order : List String}
    (h : (ofProjects projects).buildOrder = .ok order) {name : String} :
    name ∈ order ↔ name ∈ projects.map (·.name) := by
  rw [(buildOrder_perm h).mem_iff, mem_names_ofProjects]

end DependencyGraph

end BuildSteps
