import Mathlib.Data.List.Perm.Basic
import BuildSteps.Proofs.Dependency.Idempotence
import BuildSteps.Proofs.Dependency.LeastOrder

/-!
# Projects in another order

Where every project has its own name, resolution depends on the order of the projects nowhere: the
graph is in the order of names, positions only stand for names, and a project that is changed is
changed where it stands.
-/

namespace BuildSteps.Resolution

/-- The same projects, each with its own name, in two orders. -/
structure Reordered (projects others : List Project) : Prop where
  perm : projects.Perm others
  distinct : (projects.map (·.name)).Nodup

/-! ## 1. Looking for a name -/

theorem find?_name_eq_some_iff {projects : List Project}
    (distinct : (projects.map (·.name)).Nodup) {name : String} {project : Project} :
    projects.reverse.find? (·.name == name) = some project ↔
      project ∈ projects ∧ project.name = name := by
  constructor
  · intro h
    have hname := List.find?_some h
    exact ⟨List.mem_reverse.1 (List.mem_of_find?_eq_some h), beq_iff_eq.1 hname⟩
  · rintro ⟨hmem, rfl⟩
    cases hfind : projects.reverse.find? (·.name == project.name) with
    | none =>
      rw [List.find?_eq_none] at hfind
      exact absurd (beq_self_eq_true _) (hfind project (List.mem_reverse.2 hmem))
    | some other =>
      have hname := List.find?_some hfind
      have hother := List.mem_reverse.1 (List.mem_of_find?_eq_some hfind)
      rw [List.inj_on_of_nodup_map distinct hother hmem (beq_iff_eq.1 hname)]

namespace Reordered

variable {projects others : List Project}

theorem names_perm (h : Reordered projects others) :
    (projects.map (·.name)).Perm (others.map (·.name)) :=
  h.perm.map _

theorem distinct_others (h : Reordered projects others) : (others.map (·.name)).Nodup :=
  h.names_perm.nodup_iff.1 h.distinct

theorem find?_name (h : Reordered projects others) (name : String) :
    projects.reverse.find? (·.name == name) = others.reverse.find? (·.name == name) := by
  apply Option.ext
  intro project
  rw [find?_name_eq_some_iff h.distinct, find?_name_eq_some_iff h.distinct_others,
    h.perm.mem_iff]

theorem configurationOf? (h : Reordered projects others) (target : Target) (name : String) :
    Resolution.configurationOf? projects target name =
      Resolution.configurationOf? others target name := by
  rw [Resolution.configurationOf?, Resolution.configurationOf?, h.find?_name]

/-- A name leads nowhere in both lists, or to one project. -/
theorem indexOf?_cases (h : Reordered projects others) (name : String) :
    (indexOf? projects name = none ∧ indexOf? others name = none) ∨
      ∃ i j project, indexOf? projects name = some i ∧ indexOf? others name = some j ∧
        projects[i]? = some project ∧ others[j]? = some project := by
  cases hi : indexOf? projects name with
  | none =>
    cases hj : indexOf? others name with
    | none => exact .inl ⟨rfl, rfl⟩
    | some j =>
      obtain ⟨project, hproject, rfl, -⟩ := indexOf?_eq_some hj
      have hmem := List.mem_map_of_mem (f := Project.name) (List.mem_of_getElem? hproject)
      exact absurd (h.names_perm.mem_iff.2 hmem) (indexOf?_eq_none hi)
  | some i =>
    obtain ⟨project, hproject, hname, hfind⟩ := indexOf?_eq_some hi
    cases hj : indexOf? others name with
    | none =>
      have hmem := List.mem_map_of_mem (f := Project.name) (List.mem_of_getElem? hproject)
      exact absurd (hname ▸ h.names_perm.mem_iff.1 hmem) (indexOf?_eq_none hj)
    | some j =>
      obtain ⟨other, hother, -, hfind'⟩ := indexOf?_eq_some hj
      obtain rfl := Option.some.inj (hfind'.symm.trans ((h.find?_name name).symm.trans hfind))
      exact .inr ⟨i, j, other, rfl, rfl, hproject, hother⟩

/-! ## 2. The graph -/

theorem ofProjects (h : Reordered projects others) :
    DependencyGraph.ofProjects projects = DependencyGraph.ofProjects others := by
  have hmem (node : ProjectNode) : node ∈ (DependencyGraph.ofProjects projects).nodes ↔
      node ∈ (DependencyGraph.ofProjects others).nodes := by
    rw [DependencyGraph.mem_nodes_ofProjects, DependencyGraph.mem_nodes_ofProjects, h.find?_name]
  have hnodup (graph : DependencyGraph) : graph.nodes.Nodup := .of_map _ graph.names_nodup
  have hnodes : (DependencyGraph.ofProjects projects).nodes =
      (DependencyGraph.ofProjects others).nodes := by
    have hperm := (List.perm_ext_iff_of_nodup (hnodup _) (hnodup _)).2 hmem
    -- two ascending lists of the same nodes
    refine hperm.eq_of_pairwise (fun a b _ _ hab hba => ?_)
      (DependencyGraph.ofProjects projects).ascending (DependencyGraph.ofProjects others).ascending
    exact absurd (String.lt_trans hab hba) (String.lt_irrefl _)
  cases hgraph : DependencyGraph.ofProjects projects
  cases hgraph' : DependencyGraph.ofProjects others
  simp_all

/-! ## 3. Visits -/

theorem visitBound (h : Reordered projects others) (target : Target) (direct : List String) :
    Resolution.visitBound projects target direct = Resolution.visitBound others target direct := by
  rw [Resolution.visitBound, Resolution.visitBound, (h.perm.map _).foldr_eq]

/-- Visits to both lists go through the same names. -/
theorem exists_visit (h : Reordered projects others) (target : Target) (steps : Nat)
    (seen pending : List String) :
    ∃ outcome : Except BuildError (List String),
      visit projects target steps (positions projects seen) pending =
          outcome.map (positions projects) ∧
        visit others target steps (positions others seen) pending =
          outcome.map (positions others) := by
  induction steps generalizing seen pending with
  | zero => exact ⟨.ok seen, rfl, rfl⟩
  | succ steps ih =>
    match pending with
    | [] => exact ⟨.ok seen, rfl, rfl⟩
    | name :: pending =>
      rw [visit, visit]
      obtain ⟨hi, hj⟩ | ⟨i, j, project, hi, hj, hproject, hother⟩ := h.indexOf?_cases name
      · exact ⟨.error (.unknownProject name), by rw [hi]; rfl, by rw [hj]; rfl⟩
      · have hseen {list : List Project} {k : Nat} (hk : indexOf? list name = some k) :
            (positions list seen).contains k = true ↔ name ∈ seen := by
          rw [List.contains_iff_mem, mem_positions hk]
        simp only [hi, hj, hseen, hproject, hother, Option.bind_some]
        split
        · exact ih seen pending
        · cases project.configuration? target with
          | none => exact ⟨.error (.missingConfiguration name target), rfl, rfl⟩
          | some conf =>
            -- the positions of the project stand for its name
            have happend {list : List Project} {k : Nat} (hk : indexOf? list name = some k) :
                positions list seen ++ [k] = positions list (seen ++ [name]) := by
              simp [positions, hk]
            rw [happend hi, happend hj]
            exact ih (seen ++ [name]) (conf.dependencies ++ pending)

end Reordered

theorem configurationsAt_positions_eq (projects : List Project) (target : Target)
    (names : List String) :
    configurationsAt projects target (positions projects names) =
      names.filterMap (configurationOf? projects target) := by
  rw [configurationsAt, positions, List.filterMap_filterMap]
  refine List.filterMap_congr fun name _ => ?_
  cases hi : indexOf? projects name with
  | some i => exact (configurationOf?_eq target hi).symm
  | none =>
    cases hconf : configurationOf? projects target name with
    | none => rfl
    | some conf => exact absurd (configurationOf?_eq_some hconf).1 (indexOf?_eq_none hi)

namespace Reordered

variable {projects others : List Project}

theorem resolveConfiguration (h : Reordered projects others) (conf : Configuration) :
    Resolution.resolveConfiguration projects conf =
      Resolution.resolveConfiguration others conf := by
  obtain ⟨outcome, hprojects, hothers⟩ := h.exists_visit conf.target
    (Resolution.visitBound projects conf.target conf.dependencies) [] conf.dependencies
  rw [Resolution.resolveConfiguration, Resolution.resolveConfiguration, transitiveDependencies,
    transitiveDependencies, ← h.visitBound]
  rw [positions, List.filterMap_nil] at hprojects hothers
  rw [hprojects, hothers]
  cases outcome with
  | error e => rfl
  | ok names =>
    have hsources : configurationsAt projects conf.target (positions projects names) =
        configurationsAt others conf.target (positions others names) := by
      rw [configurationsAt_positions_eq, configurationsAt_positions_eq]
      exact List.filterMap_congr fun name _ => h.configurationOf? conf.target name
    simp only [Except.map, hsources]

theorem resolveConfigurations (h : Reordered projects others) (confs : List Configuration) :
    Resolution.resolveConfigurations projects confs =
      Resolution.resolveConfigurations others confs := by
  induction confs with
  | nil => rfl
  | cons conf confs ih =>
    rw [Resolution.resolveConfigurations, Resolution.resolveConfigurations,
      h.resolveConfiguration, ih]

/-! ## 4. Changes in place -/

theorem set_perm (h : Reordered projects others) {i j : Nat} {project : Project}
    (hi : projects[i]? = some project) (hj : others[j]? = some project) (changed : Project) :
    (projects.set i changed).Perm (others.set j changed) := by
  obtain ⟨hlt, rfl⟩ := List.getElem?_eq_some_iff.1 hi
  obtain ⟨hlt', hsame⟩ := List.getElem?_eq_some_iff.1 hj
  -- without the project the two lists are still the same up to their order
  have hrest : (projects.eraseIdx i).Perm (others.eraseIdx j) := by
    have hboth := ((List.getElem_cons_eraseIdx_perm hlt).trans h.perm).trans
      (List.getElem_cons_eraseIdx_perm hlt').symm
    rw [hsame] at hboth
    exact hboth.cons_inv
  exact ((List.set_perm_cons_eraseIdx hlt changed).trans (hrest.cons changed)).trans
    (List.set_perm_cons_eraseIdx hlt' changed).symm

theorem resolveProject (h : Reordered projects others) {i j : Nat} {project : Project}
    (hi : projects[i]? = some project) (hj : others[j]? = some project) :
    (Resolution.resolveProject projects i).1 = (Resolution.resolveProject others j).1 ∧
      Reordered (Resolution.resolveProject projects i).2 (Resolution.resolveProject others j).2 := by
  have hnames := names_congr (offer_of_resolveProject projects i)
  refine ⟨?_, ?_, by rw [hnames]; exact h.distinct⟩
  · rw [resolveProject_eq hi, resolveProject_eq hj, h.resolveConfigurations]
  · rw [resolveProject_eq hi, resolveProject_eq hj, h.resolveConfigurations]
    exact h.set_perm hi hj _

/-- Both resolutions go on together, also when they stop early. -/
theorem resolveAll (h : Reordered projects others) (names : List String) :
    (Resolution.resolveAll names projects).1 = (Resolution.resolveAll names others).1 ∧
      Reordered (Resolution.resolveAll names projects).2
        (Resolution.resolveAll names others).2 := by
  induction names generalizing projects others with
  | nil => exact ⟨rfl, h⟩
  | cons name names ih =>
    rw [Resolution.resolveAll, Resolution.resolveAll]
    obtain ⟨hi, hj⟩ | ⟨i, j, project, hi, hj, hproject, hother⟩ := h.indexOf?_cases name
    · rw [hi, hj]
      exact ih h
    · obtain ⟨hresult, hafter⟩ := h.resolveProject hproject hother
      simp only [hi, hj]
      cases hstep : Resolution.resolveProject projects i with
      | mk result between =>
        cases hstep' : Resolution.resolveProject others j with
        | mk result' between' =>
          rw [hstep, hstep'] at hresult hafter
          obtain rfl : result = result' := hresult
          cases result with
          | error e => exact ⟨rfl, hafter⟩
          | ok => exact ih hafter

theorem resolveDependencies (h : Reordered projects others) :
    (BuildSteps.resolveDependencies projects).1 = (BuildSteps.resolveDependencies others).1 ∧
      Reordered (BuildSteps.resolveDependencies projects).2
        (BuildSteps.resolveDependencies others).2 := by
  rw [BuildSteps.resolveDependencies, BuildSteps.resolveDependencies, h.ofProjects]
  cases (DependencyGraph.ofProjects others).validate with
  | error e => exact ⟨rfl, h⟩
  | ok =>
    cases (DependencyGraph.ofProjects others).buildOrder with
    | error e => exact ⟨rfl, h⟩
    | ok order => exact h.resolveAll order

end Reordered

/-- **Resolution does not depend on the order of the projects.** Where every project has its own
name, two orders of the same projects lead to the same success or the same error, and, also after an
error, to the same project for each name, which stands where it stood before. -/
theorem resolveDependencies_perm {projects others : List Project}
    (distinct : (projects.map (·.name)).Nodup) (h : projects.Perm others) :
    (resolveDependencies projects).1 = (resolveDependencies others).1 ∧
      (resolveDependencies projects).2.Perm (resolveDependencies others).2 ∧
      ∀ i j : Nat, projects[i]?.map (·.name) = others[j]?.map (·.name) →
        (resolveDependencies projects).2[i]? = (resolveDependencies others).2[j]? := by
  have horder : Reordered projects others := ⟨h, distinct⟩
  obtain ⟨hresult, hafter⟩ := horder.resolveDependencies
  refine ⟨hresult, hafter.perm, fun i j hname => ?_⟩
  -- resolution leaves every name in its place
  have hkeeps (list : List Project) (k : Nat) :
      (resolveDependencies list).2[k]?.map (·.name) = list[k]?.map (·.name) := by
    rw [← List.getElem?_map, ← List.getElem?_map,
      names_congr (offer_of_resolveDependencies list)]
  rw [← hkeeps projects, ← hkeeps others] at hname
  cases hi : (resolveDependencies projects).2[i]? with
  | none =>
    rw [hi] at hname
    exact (Option.map_eq_none_iff.1 hname.symm).symm
  | some project =>
    rw [hi] at hname
    obtain ⟨other, hj, hsame⟩ := Option.map_eq_some_iff.1 hname.symm
    have hmem := hafter.perm.mem_iff.1 (List.mem_of_getElem? hi)
    rw [hj, List.inj_on_of_nodup_map hafter.distinct_others (List.mem_of_getElem? hj) hmem hsame]

def mismatched : List Project :=
  [{ Project.create "app" ⟨"/app"⟩ with
      configurations := [{ Configuration.empty ⟨.win64, .vs2022, .debug⟩ with
        dependencies := ["base", "core"] }] },
    { Project.create "core" ⟨"/core"⟩ with
      configurations := [Configuration.empty ⟨.win64, .vs2022, .release⟩] },
    { Project.create "base" ⟨"/base"⟩ with
      configurations := [{ Configuration.empty ⟨.win64, .vs2022, .debug⟩ with
        exportDefines := ["BASE_API"] }] }]

theorem resolveDependencies_perm_mismatched :
    (mismatched.map (·.name)).Nodup ∧ mismatched.Perm mismatched.reverse ∧
      (resolveDependencies mismatched.reverse).1 =
        .error (.missingConfiguration "core" ⟨.win64, .vs2022, .debug⟩) ∧
      (resolveDependencies mismatched).2 ≠ mismatched ∧
      (resolveDependencies mismatched).2[2]? = (resolveDependencies mismatched.reverse).2[0]? := by
  have distinct : (mismatched.map (·.name)).Nodup := by decide
  have perm : mismatched.Perm mismatched.reverse := (List.reverse_perm mismatched).symm
  obtain ⟨hresult, -, hstates⟩ := resolveDependencies_perm distinct perm
  refine ⟨distinct, perm, ?_, by decide +kernel, hstates 2 0 rfl⟩
  rw [← hresult]
  decide +kernel

end BuildSteps.Resolution
