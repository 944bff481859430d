import BuildSteps.Proofs.Project.Discovery
import BuildSteps.Proofs.Solution.Generation
import BuildSteps.Proofs.Tool.Failure

/-!
# Which phase of a generation fails

Collecting, resolving and finalizing each have errors of their own, so that the error of a
generation tells the phase that it comes from.
-/

namespace BuildSteps

/-! ## 1. Collecting -/

inductive BuildError.OfCollection : BuildError → Prop
  | pattern (text : String) (fault : Pattern.Fault) : OfCollection (.invalidPattern text fault)
  | sourceRoot (folder : Path) : OfCollection (.sourceRootNotFound folder)
  | folder (folder : Path) (cause : FileError) : OfCollection (.cannotCreate folder cause)

open BuildError (OfCollection)

theorem Tool.ofCollection_of_collect {tool : Tool} {fs : FileSystem} {project : Project}
    {e : BuildError} (h : (tool.collect fs project).result = .error e) : OfCollection e := by
  have hfailure := failure_of_collect h
  generalize (tool.collect fs project).project = project' at hfailure
  cases hfailure with
  | pattern fault htext => exact .pattern _ fault
  | folder cause hfiles hfile => exact .folder _ cause

theorem Project.ofCollection_of_discover {project : Project} {fs : FileSystem} {e : BuildError}
    (h : project.discover fs = .error e) : OfCollection e := by
  rw [discover_eq] at h
  split at h
  · obtain rfl := Except.error.inj h
    exact .sourceRoot _
  · cases h

namespace Solution

theorem ofCollection_of_discoverMembers {fs : FileSystem} {members : List Member} {e : BuildError}
    (h : (discoverMembers fs members).1 = .error e) : OfCollection e := by
  induction members with
  | nil => cases h
  | cons m members ih =>
    rw [discoverMembers] at h
    split at h
    · exact ih h
    · split at h
      · next hfail =>
        obtain rfl := Except.error.inj h
        exact Project.ofCollection_of_discover hfail
      · exact ih h

theorem ofCollection_of_collectTools {fs : FileSystem} {project : Project} {tools : List Tool}
    {e : BuildError} (h : (collectTools fs project tools).1 = .error e) : OfCollection e := by
  induction tools generalizing fs project with
  | nil => cases h
  | cons tool tools ih =>
    rw [collectTools] at h
    split at h
    · next hfail =>
      obtain rfl := Except.error.inj h
      exact Tool.ofCollection_of_collect (congrArg Collected.result hfail)
    · split at h
      · next hfail =>
        obtain rfl := Except.error.inj h
        exact ih (congrArg Prod.fst hfail)
      · cases h

theorem ofCollection_of_collectMembers {fs : FileSystem} {members : List Member} {e : BuildError}
    (h : (collectMembers fs members).1 = .error e) : OfCollection e := by
  induction members generalizing fs with
  | nil => cases h
  | cons m members ih =>
    rw [collectMembers] at h
    split at h
    · next hfail =>
      obtain rfl := Except.error.inj h
      exact ofCollection_of_collectTools (congrArg Prod.fst hfail)
    · split at h
      · next hfail =>
        obtain rfl := Except.error.inj h
        exact ih (congrArg Prod.fst hfail)
      · cases h

theorem ofCollection_of_collect {s : Solution} {fs : FileSystem} {g : Generated}
    (h : s.collect fs = .error g) : ∃ e, g.result = .error e ∧ OfCollection e := by
  rw [collect] at h
  split at h
  · next e members hfail =>
    obtain rfl := Except.error.inj h
    exact ⟨e, rfl, ofCollection_of_discoverMembers (congrArg Prod.fst hfail)⟩
  · split at h
    · next e members made hfail =>
      obtain rfl := Except.error.inj h
      exact ⟨e, rfl, ofCollection_of_collectMembers (congrArg Prod.fst hfail)⟩
    · cases h

end Solution

/-! ## 2. Resolving -/

inductive BuildError.OfResolution : BuildError → Prop
  | cycle (names : Option (List String)) : OfResolution (.circularDependency names)
  | dependency (name dependent : String) : OfResolution (.unknownDependency name dependent)
  | project (name : String) : OfResolution (.unknownProject name)
  | configuration (project : String) (target : Target) :
    OfResolution (.missingConfiguration project target)

open BuildError (OfResolution)

namespace Resolution

theorem ofResolution_of_visit {projects : List Project} {target : Target} {steps : Nat}
    {seen : List Nat} {pending : List String} {e : BuildError}
    (h : visit projects target steps seen pending = .error e) : OfResolution e := by
  induction steps generalizing seen pending with
  | zero => cases h
  | succ steps ih =>
    match pending with
    | [] => cases h
    | name :: pending =>
      rw [visit] at h
      split at h
      · obtain rfl := Except.error.inj h
        exact .project name
      · split at h
        · exact ih h
        · split at h
          · obtain rfl := Except.error.inj h
            exact .configuration name target
          · exact ih h

theorem ofResolution_of_resolveConfigurations {projects : List Project}
    {confs : List Configuration} {e : BuildError}
    (h : (resolveConfigurations projects confs).1 = .error e) : OfResolution e := by
  induction confs with
  | nil => cases h
  | cons conf confs ih =>
    rw [resolveConfigurations] at h
    split at h
    · next hfail =>
      obtain rfl := Except.error.inj h
      rw [resolveConfiguration] at hfail
      split at hfail
      · next hvisit =>
        obtain rfl := Except.error.inj hfail
        exact ofResolution_of_visit hvisit
      · cases hfail
    · exact ih h

theorem ofResolution_of_resolveAll {names : List String} {projects : List Project} {e : BuildError}
    (h : (resolveAll names projects).1 = .error e) : OfResolution e := by
  induction names generalizing projects with
  | nil => cases h
  | cons name names ih =>
    rw [resolveAll] at h
    split at h
    · exact ih h
    · split at h
      · next hfail =>
        obtain rfl := Except.error.inj h
        rw [resolveProject] at hfail
        split at hfail
        · cases hfail
        · exact ofResolution_of_resolveConfigurations (congrArg Prod.fst hfail)
      · exact ih h

theorem ofResolution_of_resolveDependencies {projects : List Project} {e : BuildError}
    (h : (resolveDependencies projects).1 = .error e) : OfResolution e := by
  rw [resolveDependencies] at h
  split at h
  · next hfail =>
    obtain rfl := Except.error.inj h
    rw [DependencyGraph.validate] at hfail
    split at hfail
    · obtain rfl := Except.error.inj hfail
      exact .dependency _ _
    · cases hfail
  · split at h
    · next hfail =>
      obtain rfl := Except.error.inj h
      rw [DependencyGraph.buildOrder] at hfail
      split at hfail
      · cases hfail
      · obtain rfl := Except.error.inj hfail
        exact .cycle _
    · exact ofResolution_of_resolveAll h

end Resolution

/-! ## 3. Generating -/

namespace Solution

/-- Once sources are collected, resolution or finalization is what fails. -/
theorem generate_error_iff {s : Solution} {fs : FileSystem} {o : Gathered}
    (h : s.collect fs = .ok o) {e : BuildError} :
    (s.generate fs).result = .error e ↔
      (resolveDependencies (o.collected.map (·.project))).1 = .error e ∨
        ∃ projects members,
          resolveDependencies (o.collected.map (·.project)) = (.ok (), projects) ∧
            finalizeMembers ((withProjects o.collected projects).zip o.tables) =
              (.error e, members) := by
  rw [generate, h]
  show (s.finalize o).result = _ ↔ _
  rw [finalize]
  cases hresolve : resolveDependencies (o.collected.map (·.project)) with
  | mk result projects =>
    cases result with
    | error e' => simp
    | ok =>
      cases hfinalize : finalizeMembers ((withProjects o.collected projects).zip o.tables) with
      | mk result members => cases result <;> simp [hfinalize]

end Solution

end BuildSteps
