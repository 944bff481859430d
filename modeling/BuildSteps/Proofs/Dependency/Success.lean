import BuildSteps.Proofs.Dependency.LeastOrder

/-!
# When resolution succeeds

Where every dependency of a configuration leads to a configuration for the same target, neither the
validation of the graph nor a visit can fail. What is left to go wrong is a cycle.
-/

namespace BuildSteps

namespace Resolution

def Closed (projects : List Project) : Prop :=
  ∀ project ∈ projects, ∀ conf ∈ project.configurations, ∀ dependency ∈ conf.dependencies,
    ∃ source, configurationOf? projects conf.target dependency = some source

theorem configurationOf?_offer (projects : List Project) (target : Target) (name : String) :
    configurationOf? (projects.map Project.offer) target name =
      (configurationOf? projects target name).map (·.offer) := by
  rw [configurationOf?, ← List.map_reverse, List.find?_map]
  show ((projects.reverse.find? (·.name == name)).map Project.offer).bind _ = _
  rw [configurationOf?]
  cases projects.reverse.find? (·.name == name) with
  | none => rfl
  | some project => exact project.configuration?_offer target

-- dependencies and targets are on offer
theorem closed_offer_iff {projects : List Project} :
    Closed (projects.map Project.offer) ↔ Closed projects := by
  have hsource (target : Target) (name : String) :
      (∃ source, configurationOf? (projects.map Project.offer) target name = some source) ↔
        ∃ source, configurationOf? projects target name = some source := by
    rw [configurationOf?_offer]
    simp only [Option.map_eq_some_iff]
    exact ⟨fun ⟨_, source, h, _⟩ => ⟨source, h⟩, fun ⟨source, h⟩ => ⟨_, source, h, rfl⟩⟩
  constructor
  · intro h project hproject conf hconf dependency hdependency
    exact (hsource _ _).1 (h project.offer (List.mem_map_of_mem hproject) conf.offer
      (List.mem_map_of_mem hconf) dependency hdependency)
  · intro h project hproject conf hconf dependency hdependency
    obtain ⟨given, hgiven, rfl⟩ := List.mem_map.1 hproject
    obtain ⟨conf, hmem, rfl⟩ := List.mem_map.1 hconf
    exact (hsource _ _).2 (h given hgiven conf hmem dependency hdependency)

theorem Closed.congr {projects others : List Project} (h : Closed projects)
    (hoffer : projects.map Project.offer = others.map Project.offer) : Closed others := by
  rw [← closed_offer_iff, ← hoffer, closed_offer_iff]
  exact h

/-! ## 1. Visits -/

/-- A visit to names that all have a configuration for the target does not fail. -/
theorem exists_visit {projects : List Project} (closed : Closed projects) {target : Target}
    {steps : Nat} {seen : List Nat} {pending : List String}
    (h : ∀ name ∈ pending, ∃ source, configurationOf? projects target name = some source) :
    ∃ indices, visit projects target steps seen pending = .ok indices := by
  induction steps generalizing seen pending with
  | zero => exact ⟨seen, rfl⟩
  | succ steps ih =>
    match pending with
    | [] => exact ⟨seen, rfl⟩
    | name :: pending =>
      obtain ⟨⟨source, hsource⟩, hrest⟩ := List.forall_mem_cons.1 h
      rw [visit]
      cases hi : indexOf? projects name with
      | none => exact absurd (configurationOf?_eq_some hsource).1 (indexOf?_eq_none hi)
      | some i =>
        rw [configurationOf?_eq target hi] at hsource
        obtain ⟨project, hproject, hconf⟩ := Option.bind_eq_some_iff.1 hsource
        simp only [hsource]
        split
        · exact ih hrest
        -- what the new project brings has configurations for the target as well
        · refine ih fun other hother => ?_
          rcases List.mem_append.1 hother with hnew | hold
          · have htarget := Project.target_of_configuration? hconf
            rw [← htarget]
            exact closed project (List.mem_of_getElem? hproject) source
              (List.mem_of_find?_eq_some hconf) other hnew
          · exact hrest other hold

theorem exists_resolveConfigurations {projects : List Project} (closed : Closed projects)
    {confs : List Configuration} (h : ∀ conf ∈ confs, ∀ dependency ∈ conf.dependencies,
      ∃ source, configurationOf? projects conf.target dependency = some source) :
    (resolveConfigurations projects confs).1 = .ok () := by
  induction confs with
  | nil => rfl
  | cons conf confs ih =>
    obtain ⟨hfirst, hrest⟩ := List.forall_mem_cons.1 h
    obtain ⟨indices, hindices⟩ := exists_visit closed hfirst
    rw [resolveConfigurations, resolveConfiguration, transitiveDependencies, hindices]
    exact ih hrest

theorem resolveAll_of_closed {names : List String} {projects : List Project}
    (closed : Closed projects) : (resolveAll names projects).1 = .ok () := by
  induction names generalizing projects with
  | nil => rfl
  | cons name names ih =>
    rw [resolveAll]
    cases hi : indexOf? projects name with
    | none => exact ih closed
    | some i =>
      obtain ⟨project, hproject, -, -⟩ := indexOf?_eq_some hi
      have hok : (resolveProject projects i).1 = .ok () := by
        rw [resolveProject, hproject]
        exact exists_resolveConfigurations closed
          (closed project (List.mem_of_getElem? hproject))
      have hoffer := offer_of_resolveProject projects i
      -- the projects that are left read the same offers
      cases hresolved : resolveProject projects i with
      | mk result between =>
        rw [hresolved] at hok hoffer
        obtain rfl : result = .ok () := hok
        simp only [hresolved]
        exact ih (closed.congr hoffer.symm)

end Resolution

/-! ## 2. The order -/

namespace DependencyGraph

theorem validate_of_closed {projects : List Project} (closed : Resolution.Closed projects) :
    (ofProjects projects).validate = .ok () := by
  refine validate_ok_iff.2 fun name dependency hdepends => ?_
  obtain ⟨project, hproject, conf, hconf, hlisted⟩ := dependsOn_ofProjects.1 hdepends
  have hmem := List.mem_reverse.1 (List.mem_of_find?_eq_some hproject)
  obtain ⟨source, hsource⟩ := closed project hmem conf hconf dependency hlisted
  exact mem_names_ofProjects.2 (Resolution.configurationOf?_eq_some hsource).1

theorem isBuildOrder_of_buildOrder {projects : List Project} {order : List String}
    (h : (ofProjects projects).buildOrder = .ok order) :
    IsBuildOrder (ofProjects projects).names (BuildSteps.DependsOn projects) order := by
  have hgreedy : (ofProjects projects).Greedy (ofProjects projects).finish.order :=
    (exact_finish fun _ => nodup_dependencies_ofProjects).greedy
  rw [(buildOrder_ok_iff.1 h).1] at hgreedy
  rw [← dependsOn_ofProjects_eq]
  exact hgreedy.isBuildOrder (buildOrder_perm h)

theorem exists_buildOrder_iff {projects : List Project}
    (valid : (ofProjects projects).validate = .ok ()) :
    (∃ order, (ofProjects projects).buildOrder = .ok order) ↔
      ∀ name, ¬ Relation.TransGen (BuildSteps.DependsOn projects) name name := by
  constructor
  · rintro ⟨order, h⟩
    exact (isBuildOrder_of_buildOrder h).acyclic
  · intro hacyclic
    rw [← dependsOn_ofProjects_eq] at hacyclic
    exact exists_buildOrder (fun _ => nodup_dependencies_ofProjects) (mem_names_of_validate valid)
      hacyclic

/-- The search for an order fails with a cycle, and only where there is one. -/
theorem buildOrder_error {projects : List Project} {e : BuildError}
    (valid : (ofProjects projects).validate = .ok ())
    (h : (ofProjects projects).buildOrder = .error e) :
    (∃ name, Relation.TransGen (BuildSteps.DependsOn projects) name name) ∧
      ∃ cycle, e = .circularDependency cycle := by
  constructor
  · by_contra hnone
    obtain ⟨order, hok⟩ := (exists_buildOrder_iff valid).2 (not_exists.1 hnone)
    rw [h] at hok
    cases hok
  · rw [buildOrder] at h
    split at h
    · cases h
    · exact ⟨_, (Except.error.inj h).symm⟩

end DependencyGraph

/-- Where dependencies lead somewhere, resolution reports a cycle or nothing. -/
theorem resolveDependencies_of_closed {projects : List Project}
    (closed : Resolution.Closed projects) :
    ((∀ name, ¬ Relation.TransGen (DependsOn projects) name name) ∧
        (resolveDependencies projects).1 = .ok ()) ∨
      ((∃ name, Relation.TransGen (DependsOn projects) name name) ∧
        ∃ cycle, (resolveDependencies projects).1 = .error (.circularDependency cycle)) := by
  have hvalid := DependencyGraph.validate_of_closed closed
  have hiff := DependencyGraph.exists_buildOrder_iff hvalid
  rw [resolveDependencies, hvalid]
  cases horder : (DependencyGraph.ofProjects projects).buildOrder with
  | ok order => exact .inl ⟨hiff.1 ⟨order, horder⟩, Resolution.resolveAll_of_closed closed⟩
  | error e =>
    obtain ⟨hcycle, cycle, rfl⟩ := DependencyGraph.buildOrder_error hvalid horder
    exact .inr ⟨hcycle, cycle, rfl⟩

end BuildSteps
