import BuildSteps.Proofs.Dependency.Cycle

/-!
# Dependencies that are listed more than once

A node waits for as many names as its list is long, and each name that gets its place is taken off
once. A node that lists a name twice waits for ever, so that no build order is found then, and the
search fails although there may be no cycle. Among graphs without such lists the outcome depends on
who depends on whom and on nothing else.
-/

namespace BuildSteps.DependencyGraph

def HasRepeats (graph : DependencyGraph) : Prop :=
  ∃ node ∈ graph.nodes, ¬ node.dependencies.Nodup

def IsCyclic (graph : DependencyGraph) : Prop :=
  ∃ name, Relation.TransGen graph.DependsOn name name

/-- The same names depend on the same names, in lists that may differ in order and repeats. -/
structure Alike (graph other : DependencyGraph) : Prop where
  names : ∀ name, name ∈ graph.names ↔ name ∈ other.names
  dependsOn : ∀ name dependency, graph.DependsOn name dependency ↔ other.DependsOn name dependency

/-- Both searches find the same order, or both report a cycle. -/
inductive SameOutcome : Except BuildError (List String) → Except BuildError (List String) → Prop
  | order (order : List String) : SameOutcome (.ok order) (.ok order)
  | cycle (cycle cycle' : Option (List String)) :
    SameOutcome (.error (.circularDependency cycle)) (.error (.circularDependency cycle'))

/-! ## 1. What a node waits for -/

/-- No node waits for less than its list is longer than the names on it that have their place. -/
def Progress.Counts (s : Progress) : Prop :=
  ∀ entry ∈ s.waiting, entry.1.dependencies.length ≤
    entry.2 + (s.order.filter (· ∈ entry.1.dependencies)).length

namespace Progress

variable {graph : DependencyGraph} {s : Progress}

theorem counts_start (graph : DependencyGraph) : (start graph).Counts := by
  intro entry hentry
  obtain ⟨node, -, rfl⟩ := List.mem_map.1 hentry
  exact Nat.le_add_right _ _

/-- A placed name is taken off once from the number of each node that lists it. -/
theorem Counts.step (h : s.Counts) : s.step.Counts := by
  match hready : s.ready with
  | [] => rwa [Progress.step, hready]
  | current :: others =>
    rw [step_of_ready hready]
    intro entry' hentry'
    obtain ⟨entry, hentry, rfl⟩ := List.mem_map.1 hentry'
    have hcounts := h entry hentry
    rw [settle_fst, List.filter_append, List.length_append, settle]
    by_cases hlisted : current ∈ entry.1.dependencies
    · rw [if_pos (List.contains_iff_mem.2 hlisted), List.filter_cons_of_pos (by simpa using hlisted),
        List.filter_nil, List.length_singleton]
      dsimp only
      omega
    · rw [if_neg (mt List.contains_iff_mem.1 hlisted)]
      omega

theorem Counts.run (h : s.Counts) (n : Nat) : (Progress.run n s).Counts := by
  induction n generalizing s with
  | zero => exact h
  | succ n ih => exact ih h.step

end Progress

variable {graph other : DependencyGraph}

/-- Where a node waits for nothing, its list holds just the names on it that have their place: as
many different ones as the list is long. -/
theorem Progress.Sound.perm_of_settled {s : Progress} (h : s.Sound graph) (hcounts : s.Counts)
    {entry : ProjectNode × Nat} (hentry : entry ∈ s.waiting) (hzero : entry.2 = 0) :
    (s.order.filter (· ∈ entry.1.dependencies)).Perm entry.1.dependencies := by
  have hlength := hcounts entry hentry
  rw [hzero, Nat.zero_add] at hlength
  have hnodup := (List.nodup_append.1 h.nodup).1.filter (· ∈ entry.1.dependencies)
  have hsub : s.order.filter (· ∈ entry.1.dependencies) ⊆ entry.1.dependencies :=
    fun name hmem => of_decide_eq_true (List.mem_filter.1 hmem).2
  exact (List.subperm_of_subset hnodup hsub).perm_of_length_le hlength

/-- An order is found only where no node lists a name twice: every node has stopped waiting then. -/
theorem nodup_of_buildOrder {order : List String} (h : graph.buildOrder = .ok order)
    {node : ProjectNode} (hnode : node ∈ graph.nodes) : node.dependencies.Nodup := by
  have hsound : graph.finish.Sound graph := (Progress.sound_start graph).run graph.size
  have hcounts : graph.finish.Counts := (Progress.counts_start graph).run graph.size
  have hplaced : node.name ∈ graph.finish.order := by
    rw [(buildOrder_ok_iff.1 h).1]
    exact (buildOrder_perm h).mem_iff.2 (List.mem_map_of_mem hnode)
  obtain ⟨entry, hentry, hname, hzero⟩ :=
    hsound.settled node.name (List.mem_append_left _ hplaced)
  have hsame : entry.1 ∈ graph.nodes := hsound.nodes ▸ List.mem_map_of_mem hentry
  obtain rfl : entry.1 = node := List.inj_on_of_nodup_map graph.names_nodup hsame hnode hname
  exact (hsound.perm_of_settled hcounts hentry hzero).nodup_iff.1
    ((List.nodup_append.1 hsound.nodup).1.filter _)

theorem greedy_of_buildOrder {order : List String} (h : graph.buildOrder = .ok order) :
    graph.Greedy order := by
  rw [← (buildOrder_ok_iff.1 h).1]
  exact (exact_finish fun _ => nodup_of_buildOrder h).greedy

/-! ## 2. The outcome -/

theorem exists_buildOrder_iff_of_valid (valid : graph.validate = .ok ()) :
    (∃ order, graph.buildOrder = .ok order) ↔ ¬ graph.IsCyclic ∧ ¬ graph.HasRepeats := by
  constructor
  · rintro ⟨order, h⟩
    refine ⟨?_, ?_⟩
    · rintro ⟨name, hcycle⟩
      exact ((greedy_of_buildOrder h).isBuildOrder (buildOrder_perm h)).acyclic name hcycle
    · rintro ⟨node, hnode, hrepeats⟩
      exact hrepeats (nodup_of_buildOrder h hnode)
  · rintro ⟨hacyclic, hnodup⟩
    refine exists_buildOrder (fun node hnode => ?_) (mem_names_of_validate valid)
      (not_exists.1 hacyclic)
    by_contra hrepeats
    exact hnodup ⟨node, hnode, hrepeats⟩

/-- The search finds an order, or fails with what the search for a cycle has found. -/
theorem buildOrder_cases (graph : DependencyGraph) :
    (∃ order, graph.buildOrder = .ok order) ∨
      graph.buildOrder = .error (.circularDependency graph.cycle?) := by
  rw [buildOrder]
  split
  · exact .inl ⟨_, rfl⟩
  · exact .inr rfl

theorem buildOrder_error_iff (valid : graph.validate = .ok ()) (cycle : Option (List String)) :
    graph.buildOrder = .error (.circularDependency cycle) ↔
      (graph.IsCyclic ∨ graph.HasRepeats) ∧ graph.cycle? = cycle := by
  have hfound := exists_buildOrder_iff_of_valid valid
  rw [← not_or] at hfound
  rcases buildOrder_cases graph with ⟨order, h⟩ | h
  · rw [h]
    exact ⟨fun herror => (by cases herror), fun hcause => absurd hcause.1 (hfound.1 ⟨order, h⟩)⟩
  · have hcause : graph.IsCyclic ∨ graph.HasRepeats := by
      by_contra hnone
      obtain ⟨order, horder⟩ := hfound.2 hnone
      rw [h] at horder
      cases horder
    rw [h, Except.error.injEq, BuildError.circularDependency.injEq]
    exact ⟨fun hcycle => ⟨hcause, hcycle⟩, And.right⟩

theorem Alike.isCyclic_iff (h : Alike graph other) : graph.IsCyclic ↔ other.IsCyclic := by
  have hsame : graph.DependsOn = other.DependsOn := by
    funext name dependency
    exact propext (h.dependsOn name dependency)
  rw [IsCyclic, IsCyclic, hsame]

theorem Alike.validate (h : Alike graph other) (valid : graph.validate = .ok ()) :
    other.validate = .ok () :=
  validate_ok_iff.2 fun name dependency hdepends => (h.names dependency).1
    (mem_names_of_validate valid ((h.dependsOn name dependency).2 hdepends))

/-- Both orders are the least of all build orders, which are the same for the two graphs. -/
theorem Alike.order_eq (h : Alike graph other) {order order' : List String}
    (horder : graph.buildOrder = .ok order) (horder' : other.buildOrder = .ok order') :
    order = order' := by
  have hperm : graph.names.Perm other.names :=
    (List.perm_ext_iff_of_nodup graph.names_nodup other.names_nodup).2 h.names
  have hbuild := (greedy_of_buildOrder horder).isBuildOrder (buildOrder_perm horder)
  have hbuild' := (greedy_of_buildOrder horder').isBuildOrder (buildOrder_perm horder')
  have hleast := (greedy_of_buildOrder horder).eq_or_lex (buildOrder_perm horder)
    ⟨hbuild'.perm.trans hperm.symm, fun hdepends => hbuild'.respects ((h.dependsOn _ _).1 hdepends)⟩
  have hleast' := (greedy_of_buildOrder horder').eq_or_lex (buildOrder_perm horder')
    ⟨hbuild.perm.trans hperm, fun hdepends => hbuild.respects ((h.dependsOn _ _).2 hdepends)⟩
  rcases hleast with heq | hlt
  · exact heq
  · rcases hleast' with heq | hlt'
    · exact heq.symm
    · exact absurd hlt' (List.lex_asymm String.lt_asymm hlt)

theorem Alike.sameOutcome_iff (h : Alike graph other) :
    SameOutcome graph.buildOrder other.buildOrder ↔
      ((∃ order, graph.buildOrder = .ok order) ↔ ∃ order, other.buildOrder = .ok order) := by
  rcases buildOrder_cases graph with ⟨order, horder⟩ | herror <;>
    rcases buildOrder_cases other with ⟨order', horder'⟩ | herror'
  · rw [horder, horder', h.order_eq horder horder']
    exact ⟨fun _ => .rfl, fun _ => .order order'⟩
  · rw [horder, herror']
    exact ⟨fun hsame => (by cases hsame), fun hiff => by
      obtain ⟨_, hnone⟩ := hiff.1 ⟨order, rfl⟩
      cases hnone⟩
  · rw [herror, horder']
    exact ⟨fun hsame => (by cases hsame), fun hiff => by
      obtain ⟨_, hnone⟩ := hiff.2 ⟨order', rfl⟩
      cases hnone⟩
  · rw [herror, herror']
    refine ⟨fun _ => ⟨?_, ?_⟩, fun _ => .cycle _ _⟩ <;> exact fun ⟨_, hnone⟩ => by cases hnone

/-- **Repeats decide besides the relation.** For two graphs in which the same names depend on the
same names, and all dependencies are known, the outcome is the same just when there is a cycle, or
both or neither of the graphs list a name twice. An order is found where there is neither a cycle
nor a repeat. A cycle is reported where there is one; a repeat without a cycle is reported as one
that was not found. -/
theorem buildOrder_same_iff (alike : Alike graph other) (valid : graph.validate = .ok ()) :
    (SameOutcome graph.buildOrder other.buildOrder ↔
      graph.IsCyclic ∨ (graph.HasRepeats ↔ other.HasRepeats)) ∧
    ((∃ order, graph.buildOrder = .ok order) ↔ ¬ graph.IsCyclic ∧ ¬ graph.HasRepeats) ∧
    ((∃ cycle, graph.buildOrder = .error (.circularDependency (some cycle))) ↔ graph.IsCyclic) ∧
    (graph.buildOrder = .error (.circularDependency none) ↔
      ¬ graph.IsCyclic ∧ graph.HasRepeats) := by
  have hfound := exists_buildOrder_iff_of_valid valid
  have hfound' := exists_buildOrder_iff_of_valid (alike.validate valid)
  have hcyclic := alike.isCyclic_iff
  have hnone : graph.cycle? = none ↔ ¬ graph.IsCyclic := by
    rw [cycle?_eq_none_iff, IsCyclic, not_exists]
  refine ⟨?_, hfound, ?_, ?_⟩
  · rw [alike.sameOutcome_iff, hfound, hfound', ← hcyclic]
    tauto
  · constructor
    · rintro ⟨cycle, h⟩
      have hcycle := ((buildOrder_error_iff valid _).1 h).2
      by_contra hacyclic
      rw [hnone.2 hacyclic] at hcycle
      cases hcycle
    · intro h
      obtain ⟨cycle, hcycle⟩ := Option.ne_none_iff_exists'.1 (mt hnone.1 (not_not.2 h))
      exact ⟨cycle, (buildOrder_error_iff valid _).2 ⟨.inl h, hcycle⟩⟩
  · rw [buildOrder_error_iff valid, hnone]
    tauto

/-! ## 3. Graphs by their nodes -/

def CoveredBy (graph other : DependencyGraph) : Prop :=
  ∀ node ∈ graph.nodes, ∃ node' ∈ other.nodes,
    node'.name = node.name ∧ ∀ dependency ∈ node.dependencies, dependency ∈ node'.dependencies

instance (graph other : DependencyGraph) : Decidable (graph.CoveredBy other) :=
  inferInstanceAs (Decidable (∀ node ∈ graph.nodes, ∃ node' ∈ other.nodes,
    node'.name = node.name ∧ ∀ dependency ∈ node.dependencies, dependency ∈ node'.dependencies))

instance (graph : DependencyGraph) : Decidable graph.HasRepeats :=
  inferInstanceAs (Decidable (∃ node ∈ graph.nodes, ¬ node.dependencies.Nodup))

theorem CoveredBy.mem_names (h : graph.CoveredBy other) {name : String} (hname : name ∈ graph.names) :
    name ∈ other.names := by
  obtain ⟨node, hnode, rfl⟩ := List.mem_map.1 hname
  obtain ⟨node', hnode', hsame, -⟩ := h node hnode
  exact hsame ▸ List.mem_map_of_mem hnode'

theorem CoveredBy.dependsOn (h : graph.CoveredBy other) {name dependency : String}
    (hdepends : graph.DependsOn name dependency) : other.DependsOn name dependency := by
  obtain ⟨node, hnode, rfl, hmem⟩ := hdepends
  obtain ⟨node', hnode', hsame, hall⟩ := h node hnode
  exact ⟨node', hnode', hsame, hall dependency hmem⟩

theorem Alike.of_coveredBy (h : graph.CoveredBy other) (h' : other.CoveredBy graph) :
    Alike graph other where
  names _ := ⟨h.mem_names, h'.mem_names⟩
  dependsOn _ _ := ⟨h.dependsOn, h'.dependsOn⟩

def listedForward : DependencyGraph :=
  ((empty.insert ⟨"app", ["base", "core"]⟩).insert ⟨"core", ["base"]⟩).insert ⟨"base", []⟩

def listedBackward : DependencyGraph :=
  ((empty.insert ⟨"base", []⟩).insert ⟨"core", ["base"]⟩).insert ⟨"app", ["core", "base"]⟩

theorem buildOrder_same_iff_reversed :
    Alike listedForward listedBackward ∧ listedForward.validate = .ok () ∧
      (¬ listedForward.IsCyclic ∧ ¬ listedForward.HasRepeats) ∧
      listedForward.buildOrder = .ok ["base", "core", "app"] ∧
      SameOutcome listedForward.buildOrder listedBackward.buildOrder := by
  have alike : Alike listedForward listedBackward :=
    .of_coveredBy (by decide +kernel) (by decide +kernel)
  have valid : listedForward.validate = .ok () := by decide +kernel
  have horder : listedForward.buildOrder = .ok ["base", "core", "app"] := by decide +kernel
  have hnodup : ¬ listedForward.HasRepeats := by decide +kernel
  have hnodup' : ¬ listedBackward.HasRepeats := by decide +kernel
  obtain ⟨hsame, hfound, -, -⟩ := buildOrder_same_iff alike valid
  exact ⟨alike, valid, hfound.1 ⟨_, horder⟩, horder,
    hsame.2 (.inr ⟨fun h => absurd h hnodup, fun h => absurd h hnodup'⟩)⟩

def listedTwice : DependencyGraph :=
  ((empty.insert ⟨"app", ["base", "core", "base"]⟩).insert ⟨"core", ["base"]⟩).insert ⟨"base", []⟩

/-- Where a name is listed twice, a cycle is reported that is not there. -/
theorem buildOrder_differs_repeated :
    Alike listedForward listedTwice ∧ listedForward.validate = .ok () ∧
      listedTwice.validate = .ok () ∧ ¬ listedTwice.IsCyclic ∧
      listedForward.buildOrder = .ok ["base", "core", "app"] ∧
      listedTwice.buildOrder = .error (.circularDependency none) := by
  have alike : Alike listedForward listedTwice :=
    .of_coveredBy (by decide +kernel) (by decide +kernel)
  have valid : listedForward.validate = .ok () := by decide +kernel
  have horder : listedForward.buildOrder = .ok ["base", "core", "app"] := by decide +kernel
  have hacyclic := ((exists_buildOrder_iff_of_valid valid).1 ⟨_, horder⟩).1
  exact ⟨alike, valid, alike.validate valid, mt alike.isCyclic_iff.2 hacyclic, horder,
    by decide +kernel⟩

end BuildSteps.DependencyGraph
