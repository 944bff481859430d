import Mathlib.Data.List.Chain
import BuildSteps.Proofs.Dependency.Success

/-!
# The cycle that is reported

The search for a cycle goes depth first. It keeps the names on its way, so that a name that comes
back closes a cycle; and it passes over a name that it has left before, since nothing that can be
reached from there leads round a cycle. Whatever it passes over, it finds a cycle if there is one.
-/

namespace BuildSteps

/-! ## 1. Cycles -/

/-- Whether each name of the list depends on the one behind it and the list ends with the name it
starts with, to which it does not come in between, nor to any other name twice. -/
structure IsCycle (names : List String) (dependsOn : String → String → Prop)
    (cycle : List String) : Prop where
  nontrivial : 2 ≤ cycle.length
  closed : cycle.getLast? = cycle.head?
  distinct : cycle.dropLast.Nodup
  known : cycle ⊆ names
  linked : cycle.IsChain dependsOn

namespace IsCycle

variable {names cycle : List String} {dependsOn : String → String → Prop}

/-- The way that a cycle closes when it comes back to a name. -/
theorem of_append {before after : List String} {name : String}
    (hdistinct : (before ++ name :: after).Nodup) (hknown : before ++ name :: after ⊆ names)
    (hlinked : (before ++ name :: after ++ [name]).IsChain dependsOn) :
    IsCycle names dependsOn (name :: after ++ [name]) where
  nontrivial := by simp
  closed := by rw [List.getLast?_concat, List.cons_append, List.head?_cons]
  distinct := by
    rw [List.dropLast_concat]
    exact hdistinct.of_append_right
  known := by
    intro other hother
    rcases List.mem_append.1 hother with hother | hother
    · exact hknown (List.mem_append_right before hother)
    · exact hknown (List.mem_singleton.1 hother ▸ List.mem_append_right before List.mem_cons_self)
  linked := hlinked.suffix ⟨before, (List.append_assoc before _ _).symm⟩

/-- The name that a cycle starts with depends on itself. -/
theorem exists_transGen (h : IsCycle names dependsOn cycle) :
    ∃ name, Relation.TransGen dependsOn name name := by
  match cycle, h with
  | first :: second :: rest, h =>
    obtain ⟨hfirst, hrest⟩ := List.isChain_cons_cons.1 h.linked
    have hlast : (second :: rest).getLast (List.cons_ne_nil second rest) = first := by
      have hclosed := h.closed
      rw [List.getLast?_cons_cons, List.getLast?_eq_some_getLast (List.cons_ne_nil second rest)]
        at hclosed
      exact Option.some.inj hclosed
    have hway := List.relationReflTransGen_of_exists_isChain_cons rest hrest hlast
    exact ⟨first, .head' hfirst hway⟩
  | [_], h => exact absurd h.nontrivial (by simp)
  | [], h => exact absurd h.nontrivial (by simp)

end IsCycle

namespace DependencyGraph

variable {graph : DependencyGraph}

/-! ## 2. One search -/

/-- Whether all that a name depends on, directly or not, comes to an end. -/
abbrev Grounded (graph : DependencyGraph) (name : String) : Prop :=
  Acc (fun dependency name => graph.DependsOn name dependency) name

theorem Grounded.not_cyclic {name : String} (h : graph.Grounded name) :
    ¬ Relation.TransGen graph.DependsOn name name := by
  induction h with
  | intro name _ ih =>
    intro hcycle
    -- the cycle can be entered at the next name as well
    obtain ⟨next, hstep, hback⟩ := Relation.TransGen.head'_iff.1 hcycle
    exact ih next hstep (.tail' hback hstep)

theorem dependsOn_of_get? {name dependency : String} {node : ProjectNode}
    (h : graph.get? name = some node) :
    graph.DependsOn name dependency ↔ dependency ∈ node.dependencies := by
  have hnode := List.mem_of_find?_eq_some h
  have hfound := List.find?_some h
  have hname : node.name = name := beq_iff_eq.1 hfound
  refine ⟨?_, fun hmem => ⟨node, hnode, hname, hmem⟩⟩
  rintro ⟨other, hother, hsame, hmem⟩
  rwa [List.inj_on_of_nodup_map graph.names_nodup hother hnode (hsame.trans hname.symm)] at hmem

theorem mem_names_of_get? {name : String} {node : ProjectNode} (h : graph.get? name = some node) :
    name ∈ graph.names := by
  by_contra hunknown
  rw [get?_eq_none_iff.2 hunknown] at h
  cases h

/-- A name without a node depends on nothing. -/
theorem Grounded.of_unknown {name : String} (h : graph.get? name = none) : graph.Grounded name := by
  refine .intro name fun dependency hdepends => ?_
  obtain ⟨node, hnode, rfl, -⟩ := hdepends
  exact absurd (List.mem_map_of_mem hnode) (get?_eq_none_iff.1 h)

theorem isChain_concat {dependsOn : String → String → Prop} {path : List String}
    {name dependency : String} (h : (path ++ [name]).IsChain dependsOn)
    (hdepends : dependsOn name dependency) : (path ++ [name] ++ [dependency]).IsChain dependsOn := by
  refine List.isChain_append.2 ⟨h, .singleton _, fun last hlast next hnext => ?_⟩
  rw [List.getLast?_concat, Option.mem_some_iff] at hlast
  rw [List.head?_cons, Option.mem_some_iff] at hnext
  exact hlast ▸ hnext ▸ hdepends

/-- What a search may leave behind that goes on along `path` from some names: it reports a cycle, or
it has found the names grounded. What it has visited is grounded then too, but for the names on the
path, whose turn is not over. -/
structure Finds (graph : DependencyGraph) (path names : List String)
    (found : Option (List String) × List String) : Prop where
  cycle : ∀ cycle ∈ found.1, IsCycle graph.names graph.DependsOn cycle
  visited : found.1 = none → ∀ name ∈ found.2, name ∉ path → graph.Grounded name
  names : found.1 = none → ∀ name ∈ names, graph.Grounded name

namespace Finds

variable {path names visited : List String} {name : String}

theorem of_cycle {cycle : List String} (h : IsCycle graph.names graph.DependsOn cycle) :
    graph.Finds path names (some cycle, visited) where
  cycle := fun _ hother => Option.some.inj hother ▸ h
  visited := fun hnone => by cases hnone
  names := fun hnone => by cases hnone

theorem of_grounded (h : graph.Grounded name)
    (hvisited : ∀ other ∈ visited, other ∉ path → graph.Grounded other) :
    graph.Finds path [name] (none, visited) where
  cycle := fun _ hother => by cases hother
  visited := fun _ => hvisited
  names := fun _ _ hother => List.mem_singleton.1 hother ▸ h

/-- What is found below a name is found for the name, which leaves the path then. -/
theorem of_below {node : ProjectNode} {found : Option (List String) × List String}
    (hnode : graph.get? name = some node)
    (h : graph.Finds (path ++ [name]) node.dependencies found) : graph.Finds path [name] found := by
  have hgrounded (hnone : found.1 = none) : graph.Grounded name :=
    .intro name fun dependency hdepends =>
      h.names hnone dependency ((dependsOn_of_get? hnode).1 hdepends)
  refine ⟨h.cycle, fun hnone other hother hnot => ?_, fun hnone other hother => ?_⟩
  · by_cases heq : other = name
    · exact heq ▸ hgrounded hnone
    · refine h.visited hnone other hother fun hmem => ?_
      exact (List.mem_append.1 hmem).elim hnot fun hmem => heq (List.mem_singleton.1 hmem)
  · exact List.mem_singleton.1 hother ▸ hgrounded hnone

/-- Searches one after the other, of which each goes on from what the one before has visited. -/
theorem foldl (search : String → List String → Option (List String) × List String)
    (hsearch : ∀ name ∈ names, ∀ visited, (∀ other ∈ visited, other ∉ path → graph.Grounded other) →
      graph.Finds path [name] (search name visited))
    (hvisited : ∀ other ∈ visited, other ∉ path → graph.Grounded other) :
    graph.Finds path names (names.foldl (fun found name =>
      match found with
      | (some cycle, visited) => (some cycle, visited)
      | (none, visited) => search name visited) (none, visited)) := by
  -- what has been found for the names in front is kept along the fold
  suffices h : ∀ (names front : List String) (found : Option (List String) × List String),
      (∀ name ∈ names, ∀ visited, (∀ other ∈ visited, other ∉ path → graph.Grounded other) →
        graph.Finds path [name] (search name visited)) →
      graph.Finds path front found →
      graph.Finds path (front ++ names) (names.foldl (fun found name =>
        match found with
        | (some cycle, visited) => (some cycle, visited)
        | (none, visited) => search name visited) found) from
    h names [] (none, visited) hsearch
      ⟨fun _ h => (by cases h), fun _ => hvisited, fun _ _ h => absurd h List.not_mem_nil⟩
  intro names
  induction names with
  | nil =>
    intro front found _ hfound
    rwa [List.append_nil]
  | cons name names ih =>
    intro front found hsearch hfound
    obtain ⟨hfirst, hrest⟩ := List.forall_mem_cons.1 hsearch
    rw [List.append_cons, List.foldl_cons]
    refine ih (front ++ [name]) _ hrest ?_
    match found, hfound with
    | (some cycle, visited), hfound => exact of_cycle (hfound.cycle cycle rfl)
    | (none, visited), hfound =>
      have hname := hfirst visited (hfound.visited rfl)
      refine ⟨hname.cycle, hname.visited, fun hnone other hother => ?_⟩
      rcases List.mem_append.1 hother with hother | hother
      · exact hfound.names rfl other hother
      · exact hname.names hnone other hother

end Finds

/-- What is left of a path from one of its names on. -/
theorem dropWhile_append_cons {before after : List String} {name : String} (h : name ∉ before) :
    (before ++ name :: after).dropWhile (· != name) = name :: after := by
  have hbefore : ∀ other ∈ before, (other != name) = true := fun other hother =>
    bne_iff_ne.2 fun heq => h (heq ▸ hother)
  rw [List.dropWhile_append_of_pos hbefore, List.dropWhile_cons_of_neg (by simp)]

/-- A search from one name. The induction is on the depth, which is enough for every way without a
repeated name. -/
theorem finds_cycleFrom {depth : Nat} {path visited : List String} {name : String}
    (hdepth : graph.size + 2 ≤ depth + path.length) (hdistinct : path.Nodup)
    (hknown : path ⊆ graph.names) (hlinked : (path ++ [name]).IsChain graph.DependsOn)
    (hvisited : ∀ other ∈ visited, other ∉ path → graph.Grounded other) :
    graph.Finds path [name] (graph.cycleFrom depth path name visited) := by
  induction depth generalizing path name visited with
  | zero =>
    have hlength := (List.subperm_of_subset hdistinct hknown).length_le
    rw [names, List.length_map] at hlength
    rw [size] at hdepth
    omega
  | succ depth ih =>
    rw [cycleFrom]
    split
    -- the name is on the path: from there on the path is a cycle
    · next hmem =>
      obtain ⟨before, after, rfl, hfresh⟩ := List.eq_append_cons_of_mem
        (List.contains_iff_mem.1 hmem)
      rw [dropWhile_append_cons hfresh]
      exact .of_cycle (.of_append hdistinct hknown hlinked)
    · next hnew =>
      rw [List.contains_iff_mem] at hnew
      split
      · next hmem =>
        exact .of_grounded (hvisited name (List.contains_iff_mem.1 hmem) hnew) hvisited
      · split
        · next hunknown =>
          have hgrounded := Grounded.of_unknown hunknown
          refine .of_grounded hgrounded fun other hother hnot => ?_
          rcases List.mem_cons.1 hother with rfl | hother
          · exact hgrounded
          · exact hvisited other hother hnot
        · next node hnode =>
          have hname := mem_names_of_get? hnode
          refine .of_below hnode (.foldl _ (fun dependency hdependency visited hvisited => ?_) ?_)
          · refine ih ?_ ?_ ?_ ?_ hvisited
            · rw [List.length_append, List.length_singleton]
              omega
            · exact List.nodup_append_comm.1 (List.nodup_cons.2 ⟨hnew, hdistinct⟩)
            · exact List.append_subset.2 ⟨hknown, List.cons_subset.2 ⟨hname, List.nil_subset _⟩⟩
            · exact isChain_concat hlinked ((dependsOn_of_get? hnode).2 hdependency)
          -- the name itself is on the path now
          · intro other hother hnot
            rw [List.mem_append, not_or] at hnot
            rcases List.mem_cons.1 hother with rfl | hother
            · exact absurd (List.mem_singleton_self other) hnot.2
            · exact hvisited other hother hnot.1

/-! ## 3. The whole search -/

/-- All nodes are searched from, so that no cycle is missed. -/
theorem finds_cycle? (graph : DependencyGraph) :
    (∀ cycle, graph.cycle? = some cycle → IsCycle graph.names graph.DependsOn cycle) ∧
      (graph.cycle? = none → ∀ name, ¬ Relation.TransGen graph.DependsOn name name) := by
  have hsearch : graph.Finds [] graph.names _ :=
    .foldl (graph.cycleFrom (graph.size + 2) []) (fun name _ visited hvisited =>
        finds_cycleFrom (Nat.le_refl _) .nil (List.nil_subset _) (.singleton name) hvisited)
      fun _ hother => absurd hother List.not_mem_nil
  rw [names, List.foldl_map] at hsearch
  refine ⟨hsearch.cycle, fun hnone name hcycle => ?_⟩
  -- a name that depends on something is that of a node
  obtain ⟨_, ⟨node, hnode, rfl, -⟩, -⟩ := Relation.TransGen.head'_iff.1 hcycle
  exact (hsearch.names hnone node.name (List.mem_map_of_mem hnode)).not_cyclic hcycle

theorem cycle?_eq_none_iff :
    graph.cycle? = none ↔ ∀ name, ¬ Relation.TransGen graph.DependsOn name name := by
  refine ⟨(finds_cycle? graph).2, fun hacyclic => ?_⟩
  cases hcycle : graph.cycle? with
  | none => rfl
  | some cycle =>
    obtain ⟨name, hname⟩ := ((finds_cycle? graph).1 cycle hcycle).exists_transGen
    exact absurd hname (hacyclic name)

/-- Two names joined by arrows show an arrow, and so are no text without one. -/
theorem join_arrow_ne {names : List String} (h : 2 ≤ names.length) {text : String}
    (htext : '>' ∉ text.toList) : Text.join " -> " names ≠ text := by
  match names, h with
  | first :: second :: rest, _ =>
    rintro rfl
    refine htext ?_
    rw [Text.join, String.toList_append, String.toList_append, List.mem_append, List.mem_append]
    · exact .inl (.inr (by decide))
    · exact List.cons_ne_nil second rest

/-- **A cycle is reported as it is.** Where every dependency names a project and some project
depends on itself, directly or not, the search for a build order fails with the names along a
cycle, and the message shows them with arrows in between. The wording for a cycle that was not found
does not occur. -/
theorem buildOrder_reports_cycle {projects : List Project}
    (valid : (ofProjects projects).validate = .ok ())
    (cyclic : ∃ name, Relation.TransGen (BuildSteps.DependsOn projects) name name) :
    ∃ cycle,
      (ofProjects projects).buildOrder = .error (.circularDependency (some cycle)) ∧
      IsCycle (projects.map (·.name)) (BuildSteps.DependsOn projects) cycle ∧
      (BuildError.circularDependency (some cycle)).message =
        "Circular dependency detected: " ++ Text.join " -> " cycle ∧
      Text.join " -> " cycle ≠ "unknown cycle" := by
  have hfails : ¬ (ofProjects projects).finish.order.length = (ofProjects projects).size := by
    intro hlength
    have horder := (exists_buildOrder_iff valid).1 ⟨_, buildOrder_ok_iff.2 ⟨rfl, hlength⟩⟩
    obtain ⟨name, hname⟩ := cyclic
    exact horder name hname
  obtain ⟨hsome, hnone⟩ := finds_cycle? (ofProjects projects)
  rw [dependsOn_ofProjects_eq] at hsome hnone
  cases hcycle : (ofProjects projects).cycle? with
  | none =>
    obtain ⟨name, hname⟩ := cyclic
    exact absurd hname (hnone hcycle name)
  | some cycle =>
    have hgenuine := hsome cycle hcycle
    refine ⟨cycle, ?_, ⟨hgenuine.nontrivial, hgenuine.closed, hgenuine.distinct, ?_,
      hgenuine.linked⟩, rfl, join_arrow_ne hgenuine.nontrivial (by decide)⟩
    · rw [buildOrder]
      simp only [if_neg hfails, hcycle]
    · exact fun name hname => mem_names_ofProjects.1 (hgenuine.known hname)

def looped : List Project :=
  let project (name : String) (dependencies : List String) : Project :=
    { Project.create name ⟨"/" ++ name⟩ with
      configurations := [{ Configuration.empty ⟨.win64, .vs2022, .debug⟩ with dependencies }] }
  [project "app" ["core", "gui"], project "core" [], project "gui" ["net"], project "net" ["gui"]]

theorem buildOrder_reports_cycle_looped :
    (ofProjects looped).validate = .ok () ∧
      (∃ name, Relation.TransGen (BuildSteps.DependsOn looped) name name) ∧
      (ofProjects looped).buildOrder =
        .error (.circularDependency (some ["gui", "net", "gui"])) ∧
      IsCycle ["app", "core", "gui", "net"] (BuildSteps.DependsOn looped) ["gui", "net", "gui"] := by
  have valid : (ofProjects looped).validate = .ok () := by decide +kernel
  have cyclic : ∃ name, Relation.TransGen (BuildSteps.DependsOn looped) name name := by
    refine ⟨"gui", .tail (.single (b := "net") ?_) ?_⟩
    · exact ⟨_, rfl, _, List.mem_singleton_self _, List.mem_singleton_self _⟩
    · exact ⟨_, rfl, _, List.mem_singleton_self _, List.mem_singleton_self _⟩
  obtain ⟨cycle, horder, hcycle, -, -⟩ := buildOrder_reports_cycle valid cyclic
  have hreport : (ofProjects looped).buildOrder =
      .error (.circularDependency (some ["gui", "net", "gui"])) := by decide +kernel
  rw [hreport] at horder
  obtain rfl : ["gui", "net", "gui"] = cycle := by simpa using horder
  exact ⟨valid, cyclic, hreport, hcycle⟩

end DependencyGraph

end BuildSteps
