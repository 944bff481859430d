import BuildSteps.Proofs.Dependency.Shadowing

/-!
# Resolving again

Resolution changes nothing that it reads, so that a second one finds the same graph, goes the same
ways and comes to the same sources. All that they offer is there already.
-/

namespace BuildSteps

/-! ## 1. What is read the second time -/

namespace DependencyGraph

theorem ofProjects_offer (projects : List Project) :
    ofProjects (projects.map Project.offer) = ofProjects projects := by
  have hnode (project : Project) : nodeOf project.offer = nodeOf project := by
    rw [nodeOf, nodeOf, Project.offer, List.flatMap_map]
    rfl
  rw [ofProjects, ofProjects, List.map_map]
  congr 1
  exact List.map_congr_left fun project _ => hnode project

theorem ofProjects_congr {projects others : List Project}
    (h : projects.map Project.offer = others.map Project.offer) :
    ofProjects projects = ofProjects others := by
  rw [← ofProjects_offer, h, ofProjects_offer]

end DependencyGraph

namespace Resolution

theorem offer_of_resolveAll (names : List String) (projects : List Project) :
    (resolveAll names projects).2.map Project.offer = projects.map Project.offer := by
  induction names generalizing projects with
  | nil => rfl
  | cons name names ih =>
    rw [resolveAll]
    split
    · exact ih projects
    · next i hi =>
      have hoffer := offer_of_resolveProject projects i
      split
      · next hstep => rw [← hoffer, hstep]
      · next between hstep => rw [ih, ← hoffer, hstep]

/-- Whatever the outcome, projects offer after a resolution what they offered before it. -/
theorem offer_of_resolveDependencies (projects : List Project) :
    (resolveDependencies projects).2.map Project.offer = projects.map Project.offer := by
  rw [resolveDependencies]
  split
  · rfl
  · split
    · rfl
    · exact offer_of_resolveAll _ projects

/-! ## 2. What there is left to take over -/

theorem resolveConfiguration_again {projects : List Project} {conf resolved : Configuration}
    (h : resolveConfiguration projects conf = .ok resolved) :
    resolveConfiguration projects resolved = .ok resolved := by
  obtain ⟨indices, hindices, rfl⟩ := resolveConfiguration_ok h
  rw [resolveConfiguration, hindices]
  simp only [Path.insertAllLast_insertAllLast_self, List.insertAllLast_insertAllLast_self]

/-- Whether the configurations of every project that has not lost its name have taken over all
there is. -/
def Settled (projects : List Project) : Prop :=
  ∀ (i : Nat) (project : Project), projects[i]? = some project → ¬ Shadowed projects i →
    ∀ conf ∈ project.configurations, resolveConfiguration projects conf = .ok conf

theorem resolveConfigurations_of_fixed {projects : List Project} {confs : List Configuration}
    (h : ∀ conf ∈ confs, resolveConfiguration projects conf = .ok conf) :
    resolveConfigurations projects confs = (.ok (), confs) := by
  induction confs with
  | nil => rfl
  | cons conf confs ih =>
    obtain ⟨hfirst, hrest⟩ := List.forall_mem_cons.1 h
    rw [resolveConfigurations, hfirst, ih hrest]

theorem resolveAll_of_settled {projects : List Project} (settled : Settled projects)
    (names : List String) : resolveAll names projects = (.ok (), projects) := by
  induction names with
  | nil => rfl
  | cons name names ih =>
    rw [resolveAll]
    split
    · exact ih
    · next i hi =>
      obtain ⟨project, hproject, rfl, -⟩ := indexOf?_eq_some hi
      -- a name leads to a project that has not lost it
      have hfixed := settled i project hproject ((indexOf?_name_iff hproject).1 hi)
      have hsame : projects.set i project = projects := by
        obtain ⟨hlt, rfl⟩ := List.getElem?_eq_some_iff.1 hproject
        exact List.set_getElem_self hlt
      have hstep : resolveProject projects i = (.ok (), projects) := by
        rw [resolveProject_eq hproject, resolveConfigurations_of_fixed hfixed, hsame]
      rw [hstep]
      exact ih

theorem shadowed_congr {projects others : List Project}
    (h : projects.map Project.offer = others.map Project.offer) (i : Nat) :
    Shadowed projects i ↔ Shadowed others i := by
  rw [Shadowed, Shadowed, names_congr h]

theorem settled_of_resolveDependencies {projects resolved : List Project}
    (h : resolveDependencies projects = (.ok (), resolved)) : Settled resolved := by
  have hoffer : resolved.map Project.offer = projects.map Project.offer := by
    rw [← offer_of_resolveDependencies projects, h]
  obtain ⟨hlength, hall⟩ := getElem?_resolveDependencies h
  intro i project' hi hfound conf' hconf'
  have hlt : i < projects.length := hlength ▸ (List.getElem?_eq_some_iff.1 hi).1
  obtain ⟨given, hgiven, hresolved, -⟩ := hall i projects[i] (List.getElem?_eq_getElem hlt)
  obtain rfl := Option.some.inj (hi.symm.trans hgiven)
  -- the configuration comes out of one that was there before
  obtain ⟨confs, rfl, hconfs⟩ := hresolved fun hshadowed =>
    hfound ((shadowed_congr hoffer i).2 hshadowed)
  obtain ⟨conf, -, hconf⟩ := hconfs.flip.exists_of_mem hconf'
  rw [resolveConfiguration_congr hoffer]
  exact resolveConfiguration_again hconf

/-- **Resolution is idempotent.** Once it has succeeded, resolving the projects again succeeds and
changes nothing. -/
theorem resolveDependencies_idempotent {projects resolved : List Project}
    (h : resolveDependencies projects = (.ok (), resolved)) :
    resolveDependencies resolved = (.ok (), resolved) := by
  have hoffer : resolved.map Project.offer = projects.map Project.offer := by
    rw [← offer_of_resolveDependencies projects, h]
  have hsettled := settled_of_resolveDependencies h
  -- the graph is the same, and has been found valid and without a cycle
  rw [resolveDependencies] at h ⊢
  rw [DependencyGraph.ofProjects_congr hoffer]
  split at h
  · cases h
  · split at h
    · cases h
    · exact resolveAll_of_settled hsettled _

theorem resolveDependencies_idempotent_diamond :
    (resolveDependencies diamond).1 = .ok () ∧
      (resolveDependencies diamond).2 ≠ diamond ∧
      resolveDependencies (resolveDependencies diamond).2 =
        (.ok (), (resolveDependencies diamond).2) := by
  have ok : (resolveDependencies diamond).1 = .ok () := by decide +kernel
  exact ⟨ok, by decide +kernel, resolveDependencies_idempotent (Prod.ext ok rfl)⟩

end Resolution

end BuildSteps
