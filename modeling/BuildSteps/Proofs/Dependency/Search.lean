import BuildSteps.Proofs.Dependency.Multiplicity

/-!
# What a search for a build order never does

The lists of dependencies may hold unknown names, names twice, and the name of the node itself. The
search comes to an end all the same. It takes off no number that is zero, since a name without a
place is still counted, and makes no name ready twice. What it has placed at any time are different
names of nodes, each behind all that its node lists.
-/

namespace BuildSteps.DependencyGraph

variable {graph : DependencyGraph}

def DependenciesFirst (graph : DependencyGraph) (order : List String) : Prop :=
  ∀ before name after, order = before ++ name :: after →
    ∀ dependency, graph.DependsOn name dependency → dependency ∈ before

theorem DependenciesFirst.concat {order : List String} {name : String}
    (h : graph.DependenciesFirst order)
    (hname : ∀ dependency, graph.DependsOn name dependency → dependency ∈ order) :
    graph.DependenciesFirst (order ++ [name]) := by
  intro before other after horder
  rcases List.eq_nil_or_concat after with rfl | ⟨between, last, rfl⟩
  · obtain ⟨rfl, hlast⟩ := List.append_inj' horder rfl
    obtain rfl := List.singleton_inj.1 hlast
    exact hname
  · rw [List.concat_eq_append, ← List.cons_append, ← List.append_assoc] at horder
    exact h before other between (List.append_inj' horder rfl).1

namespace Progress

variable {s : Progress}

/-! ## 1. At one point of the search -/

/-- Where a node waits for nothing, all names on its list have their place. -/
theorem Sound.mem_order (h : s.Sound graph) (hcounts : s.Counts) {name dependency : String}
    (hname : name ∈ s.order ++ s.ready) (hdepends : graph.DependsOn name dependency) :
    dependency ∈ s.order := by
  obtain ⟨entry, hentry, rfl, hzero⟩ := h.settled name hname
  obtain ⟨node, hnode, hsame, hlisted⟩ := hdepends
  have hgraph : entry.1 ∈ graph.nodes := h.nodes ▸ List.mem_map_of_mem hentry
  obtain rfl : node = entry.1 := List.inj_on_of_nodup_map graph.names_nodup hnode hgraph hsame
  have hplaced := h.perm_of_settled hcounts hentry hzero
  exact (List.mem_filter.1 (hplaced.mem_iff.2 hlisted)).1

/-- A node that lists the next name still waits for it: the names on its list that have their place
are different from this one. -/
theorem Sound.positive (h : s.Sound graph) (hcounts : s.Counts) {current : String}
    {others : List String} (hready : s.ready = current :: others) {entry : ProjectNode × Nat}
    (hentry : entry ∈ s.waiting) (hlisted : current ∈ entry.1.dependencies) : 0 < entry.2 := by
  have hnodup := h.nodup
  rw [hready] at hnodup
  obtain ⟨horder, -, hdisjoint⟩ := List.nodup_append.1 hnodup
  have hfresh : current ∉ s.order := fun hmem => hdisjoint current hmem current List.mem_cons_self rfl
  have hmore : (current :: s.order.filter (· ∈ entry.1.dependencies)).Nodup :=
    List.nodup_cons.2 ⟨fun hmem => hfresh (List.mem_filter.1 hmem).1, horder.filter _⟩
  have hsub : current :: s.order.filter (· ∈ entry.1.dependencies) ⊆ entry.1.dependencies :=
    List.cons_subset.2 ⟨hlisted, fun name hmem => of_decide_eq_true (List.mem_filter.1 hmem).2⟩
  have hle := (List.subperm_of_subset hmore hsub).length_le
  have hlength := hcounts entry hentry
  rw [List.length_cons] at hle
  omega

/-- What holds at every point of a search. -/
structure Safe (graph : DependencyGraph) (s : Progress) : Prop where
  /-- The number of a node that lists the next name is not zero. -/
  positive : ∀ current ∈ s.ready.head?, ∀ entry ∈ s.waiting,
    current ∈ entry.1.dependencies → 0 < entry.2
  distinct : s.order.Nodup
  known : s.order ⊆ graph.names
  dependenciesFirst : graph.DependenciesFirst s.order

theorem Sound.safe (h : s.Sound graph) (hcounts : s.Counts)
    (hfirst : graph.DependenciesFirst s.order) : s.Safe graph where
  positive current hcurrent entry hentry hlisted := by
    obtain ⟨others, hready⟩ := List.head?_eq_some_iff.1 hcurrent
    exact h.positive hcounts hready hentry hlisted
  distinct := (List.nodup_append.1 h.nodup).1
  known _ hmem := h.mem_names (List.mem_append_left _ hmem)
  dependenciesFirst := hfirst

/-! ## 2. Through the search -/

theorem Sound.dependenciesFirst_step (h : s.Sound graph) (hcounts : s.Counts)
    (hfirst : graph.DependenciesFirst s.order) : graph.DependenciesFirst s.step.order := by
  match hready : s.ready with
  | [] => rwa [Progress.step, hready]
  | current :: others =>
    have hcurrent : current ∈ s.order ++ s.ready :=
      List.mem_append_right _ (hready ▸ List.mem_cons_self)
    rw [step_of_ready hready]
    exact hfirst.concat fun _ => h.mem_order hcounts hcurrent

theorem Sound.dependenciesFirst_run (h : s.Sound graph) (hcounts : s.Counts)
    (hfirst : graph.DependenciesFirst s.order) (n : Nat) :
    graph.DependenciesFirst (Progress.run n s).order := by
  induction n generalizing s with
  | zero => exact hfirst
  | succ n ih => exact ih h.step hcounts.step (h.dependenciesFirst_step hcounts hfirst)

def releases : Nat → Progress → List String
  | 0, _ => []
  | n + 1, s => s.ready.head?.toList.flatMap s.released ++ releases n s.step

/-- Up to their order, the names that are ready or have their place are those from before and those
that were made ready since. -/
theorem Sound.run_perm (h : s.Sound graph) (n : Nat) :
    ((Progress.run n s).order ++ (Progress.run n s).ready).Perm (s.order ++ s.ready ++ releases n s) := by
  induction n generalizing s with
  | zero => rw [releases, List.append_nil]; exact .refl _
  | succ n ih =>
    have hstep : (s.step.order ++ s.step.ready).Perm
        (s.order ++ s.ready ++ s.ready.head?.toList.flatMap s.released) := by
      match hready : s.ready with
      | [] => simp [Progress.step, hready]
      | current :: others =>
        have hperm := h.step_perm hready
        rw [hready] at hperm
        simpa using hperm.trans List.perm_append_comm
    rw [Progress.run, releases, ← List.append_assoc]
    exact (ih h.step).trans (hstep.append_right _)

/-- There is no room for a name that is ready once as many names are placed as there are nodes. -/
theorem Sound.ready_run_size (h : s.Sound graph) : (Progress.run graph.size s).ready = [] := by
  rcases run_length s graph.size with hlength | hnone
  · have hsound := h.run graph.size
    have hle := (List.subperm_of_subset hsound.nodup fun _ => hsound.mem_names).length_le
    have hnodes : graph.names.length = graph.size := List.length_map _
    rw [List.length_append] at hle
    exact List.length_eq_zero_iff.1 (by omega)
  · exact hnone

end Progress

/-! ## 3. The search for a cycle -/

/-- The search for a cycle never comes as far down as it is allowed to. -/
theorem cycleFrom_of_le {depth depth' : Nat} {path visited : List String} {name : String}
    (hdepth : graph.size + 2 ≤ depth + path.length) (hle : depth ≤ depth') (hdistinct : path.Nodup)
    (hknown : path ⊆ graph.names) :
    graph.cycleFrom depth' path name visited = graph.cycleFrom depth path name visited := by
  induction depth generalizing depth' path name visited with
  | zero =>
    have hlength := (List.subperm_of_subset hdistinct hknown).length_le
    rw [names, List.length_map] at hlength
    rw [size] at hdepth
    omega
  | succ depth ih =>
    obtain ⟨depth', rfl⟩ := Nat.exists_eq_add_of_lt (Nat.lt_of_succ_le hle)
    rw [cycleFrom, cycleFrom]
    split
    · rfl
    · next hnew =>
      rw [List.contains_iff_mem] at hnew
      split
      · rfl
      · split
        · rfl
        · next node hnode =>
          have hname := mem_names_of_get? hnode
          have hpath : (path ++ [name]).Nodup :=
            List.nodup_append_comm.1 (List.nodup_cons.2 ⟨hnew, hdistinct⟩)
          have hnodes : path ++ [name] ⊆ graph.names :=
            List.append_subset.2 ⟨hknown, List.cons_subset.2 ⟨hname, List.nil_subset _⟩⟩
          refine List.foldl_ext _ _ _ fun found dependency _ => ?_
          split
          · rfl
          · refine ih ?_ (by omega) hpath hnodes
            rw [List.length_append, List.length_singleton]
            omega

/-! ## 4. The whole search -/

theorem Progress.run_add (m n : Nat) (s : Progress) : run (m + n) s = run n (run m s) := by
  induction m generalizing s with
  | zero => rw [Nat.zero_add, run]
  | succ m ih => rw [Nat.succ_add, run, ih, run]

/-- **A search for a build order is safe.** In every graph, whatever its nodes list, no name is ready
any more after as many steps as there are nodes, and nothing happens after that; the search for a
cycle comes to an end as well, so that a greater bound on its depth changes nothing. Of all names
that are ready at the start or become so in any number of steps, none is there twice. And at every
point of the search no number is zero that one is about to be taken from, and the names placed so
far are different names of nodes, each behind all that it depends on. -/
theorem search_safe (graph : DependencyGraph) :
    (graph.finish.ready = [] ∧
      ∀ rounds ≥ graph.size, Progress.run rounds (.start graph) = graph.finish) ∧
    (∀ depth ≥ graph.size + 2, ∀ name visited,
      graph.cycleFrom depth [] name visited = graph.cycleFrom (graph.size + 2) [] name visited) ∧
    ∀ rounds,
      ((Progress.start graph).ready ++ Progress.releases rounds (.start graph)).Nodup ∧
      (Progress.run rounds (.start graph)).Safe graph := by
  have hsound := Progress.sound_start graph
  have hcounts := Progress.counts_start graph
  have hidle : graph.finish.ready = [] := hsound.ready_run_size
  have hfirst : graph.DependenciesFirst (Progress.start graph).order := by
    intro before name after hnil
    cases before <;> cases hnil
  refine ⟨⟨hidle, fun rounds hrounds => ?_⟩, fun depth hdepth name visited =>
    cycleFrom_of_le (Nat.le_refl _) hdepth .nil (List.nil_subset _), fun rounds => ⟨?_, ?_⟩⟩
  · obtain ⟨more, rfl⟩ := Nat.exists_eq_add_of_le hrounds
    rw [Progress.run_add]
    exact Progress.run_of_idle hidle more
  · exact (hsound.run_perm rounds).nodup_iff.1 (hsound.run rounds).nodup
  · exact (hsound.run rounds).safe (hcounts.run rounds)
      (hsound.dependenciesFirst_run hcounts hfirst rounds)

-- a name listed twice, the name of the node itself and an unknown one: all three keep waiting
example :
    let graph := (((empty.insert ⟨"app", ["base", "base"]⟩).insert ⟨"base", []⟩).insert
      ⟨"loop", ["base", "loop"]⟩).insert ⟨"stray", ["base", "ghost"]⟩
    graph.finish.order = ["base"] ∧ graph.finish.waiting.map (·.2) = [1, 0, 1, 1] := by
  decide +kernel

end BuildSteps.DependencyGraph
