import BuildSteps.Proofs.Manifest
import BuildSteps.Proofs.Solution.Generation
import BuildSteps.Setup

/-!
# Generation for a workspace

The configurations of a project are those of the matrix of the manifest. Validation does not look
for repeats in the lists of the matrix, and where there are some, the later configurations for a
target keep steps without a bundle.
-/

namespace BuildSteps

/-! ## 1. Setups of accepted workspaces -/

namespace Workspace

theorem qtBinDir_of_firstMissing? {w : Workspace} {projects : List ProjectManifest}
    (h : w.firstMissing? projects = none) {p : ProjectManifest} (hp : p ∈ projects)
    (hqt : p.qt.isSome = true) : ∃ dir, w.qtBinDir p = .ok dir := by
  induction projects with
  | nil => cases hp
  | cons first projects ih =>
    rw [firstMissing?] at h
    rcases List.mem_cons.1 hp with rfl | hmem
    · rw [if_pos hqt] at h
      split at h
      · cases h
      · next dir hdir => exact ⟨dir, hdir⟩
    · split at h
      · split at h
        · cases h
        · exact ih h hmem
      · exact ih h hmem

theorem qtBinDir_of_validate {w : Workspace} (h : w.validate = .ok ()) {p : ProjectManifest}
    (hp : p ∈ w.manifest.projects) (hqt : p.qt.isSome = true) :
    ∃ dir, w.qtBinDir p = .ok dir := by
  rw [validate] at h
  split at h
  · cases h
  · next hmissing => exact qtBinDir_of_firstMissing? hmissing hp hqt

end Workspace

namespace Setup

-- a folder of generators is all that can be missing
theorem ofProject_ok {w : Workspace} (h : w.validate = .ok ()) {p : ProjectManifest}
    (hp : p ∈ w.manifest.projects) :
    ∃ setup, ofProject w p = .ok setup ∧ setup.project = projectOf w p := by
  rw [ofProject]
  split
  · exact ⟨_, rfl, rfl⟩
  · next qt hqt =>
    have hsome : p.qt.isSome = true := by rw [hqt]; rfl
    obtain ⟨dir, hdir⟩ := Workspace.qtBinDir_of_validate h hp hsome
    rw [hdir]
    exact ⟨_, rfl, rfl⟩

theorem forall₂_ofProjects {w : Workspace} {projects : List ProjectManifest} {setups : List Setup}
    (h : ofProjects w projects = .ok setups) :
    List.Forall₂ (fun p s => ofProject w p = .ok s) projects setups := by
  induction projects generalizing setups with
  | nil =>
    obtain rfl := Except.ok.inj h
    exact .nil
  | cons p projects ih =>
    rw [ofProjects] at h
    split at h
    · cases h
    · next setup hsetup =>
      split at h
      · cases h
      · next rest hrest =>
        obtain rfl := Except.ok.inj h
        exact .cons hsetup (ih hrest)

theorem ofProject_cases {w : Workspace} {p : ProjectManifest} {s : Setup}
    (h : ofProject w p = .ok s) :
    s.project = projectOf w p ∧ s.schema = p.proto.map (schemaTool w (w.projectRoot p) p) ∧
      (p.qt = none ∧ s.qt = none ∨
        ∃ qt binDir, p.qt = some qt ∧ s.qt = some (qtTool (w.projectRoot p) binDir p qt)) := by
  rw [ofProject] at h
  split at h
  · next hqt =>
    obtain rfl := Except.ok.inj h
    exact ⟨rfl, rfl, .inl ⟨hqt, rfl⟩⟩
  · next qt hqt =>
    split at h
    · cases h
    · next binDir _ =>
      obtain rfl := Except.ok.inj h
      exact ⟨rfl, rfl, .inr ⟨qt, binDir, hqt, rfl⟩⟩

theorem ofWorkspace_ok {w : Workspace} (h : w.validate = .ok ()) :
    ∃ setups, ofWorkspace w = .ok setups ∧
      setups.map (·.project) = w.manifest.projects.map (projectOf w) := by
  have hall : ∀ projects : List ProjectManifest, projects ⊆ w.manifest.projects →
      ∃ setups, ofProjects w projects = .ok setups ∧
        setups.map (·.project) = projects.map (projectOf w) := by
    intro projects hsub
    induction projects with
    | nil => exact ⟨[], rfl, rfl⟩
    | cons p projects ih =>
      obtain ⟨hp, hrest⟩ := List.cons_subset.1 hsub
      obtain ⟨setup, hsetup, hproject⟩ := ofProject_ok h hp
      obtain ⟨setups, hsetups, hprojects⟩ := ih hrest
      refine ⟨setup :: setups, ?_, ?_⟩
      · rw [ofProjects, hsetup, hsetups]
      · rw [List.map_cons, List.map_cons, hproject, hprojects]
  exact hall w.manifest.projects (List.Subset.refl _)

-- whatever the project, its configurations are those of the matrix
theorem targets_projectOf (w : Workspace) (p : ProjectManifest) :
    (projectOf w p).configurations.map (·.target) = w.manifest.targets := by
  show (w.manifest.targets.map _).map _ = _
  rw [List.map_map]
  exact List.map_id _

theorem steps_projectOf {w : Workspace} {p : ProjectManifest} {conf : Configuration}
    (h : conf ∈ (projectOf w p).configurations) : conf.steps = [] := by
  obtain ⟨target, -, rfl⟩ := List.mem_map.1 h
  rfl

@[simp] theorem projects_solution (name : String) (setups : List Setup) :
    (solution name setups).projects = setups.map (·.project) := by
  rw [Solution.projects, solution, List.map_map]
  rfl

theorem nodup_names_projectOf {w : Workspace} (manifest : w.manifest.validate = .ok ()) :
    ((w.manifest.projects.map (projectOf w)).map (·.name)).Nodup := by
  rw [List.map_map]
  exact (Manifest.validate_ok manifest).1

/-! ## 2. Resolved steps -/

theorem project_of_mem {w : Workspace} {setups : List Setup}
    (hprojects : setups.map (·.project) = w.manifest.projects.map (projectOf w)) {setup : Setup}
    (hsetup : setup ∈ setups) : ∃ p, setup.project = projectOf w p := by
  have hmem : setup.project ∈ setups.map (·.project) := List.mem_map_of_mem hsetup
  rw [hprojects] at hmem
  obtain ⟨p, -, hp⟩ := List.mem_map.1 hmem
  exact ⟨p, hp.symm⟩

-- nothing is made of a project before generation
theorem steps_solution {w : Workspace} {setups : List Setup}
    (hprojects : setups.map (·.project) = w.manifest.projects.map (projectOf w)) (name : String) :
    ∀ project ∈ (solution name setups).projects, ∀ conf ∈ project.configurations,
      conf.steps = [] := by
  intro project hmem
  rw [projects_solution] at hmem
  obtain ⟨setup, hsetup, rfl⟩ := List.mem_map.1 hmem
  obtain ⟨p, hp⟩ := project_of_mem hprojects hsetup
  rw [hp]
  exact fun _ => steps_projectOf

/-- Every member of a generated solution has become of one with the targets of the matrix. -/
theorem exists_generates {w : Workspace} (manifest : w.manifest.validate = .ok ())
    {setups : List Setup}
    (hprojects : setups.map (·.project) = w.manifest.projects.map (projectOf w)) {name : String}
    {fs : FileSystem} {stats : GenerationStats}
    (h : ((solution name setups).generate fs).result = .ok stats) {m : Solution.Member}
    (hm : m ∈ ((solution name setups).generate fs).solution.members) :
    ∃ g : Solution.Gathering, g.Generates (solution name setups).projects m ∧
      g.before.project.configurations.map (·.target) = w.manifest.targets := by
  have hnames : ((solution name setups).projects.map (·.name)).Nodup := by
    rw [projects_solution, hprojects]
    exact nodup_names_projectOf manifest
  obtain ⟨_, gatherings, -, -, hgiven, hgenerates⟩ :=
    Solution.generate_members hnames (steps_solution hprojects name) h
  -- back from the member at the end to the setup it comes from
  obtain ⟨g, hg, hgenerate⟩ := hgenerates.flip.exists_of_mem hm
  obtain ⟨member, hmember, -, hconfs⟩ := hgiven.flip.exists_of_mem hg
  obtain ⟨setup, hsetup, rfl⟩ := List.mem_map.1 hmember
  obtain ⟨p, hp⟩ := project_of_mem hprojects hsetup
  refine ⟨g, hgenerate, ?_⟩
  rw [← hconfs, hp, targets_projectOf]

/-- **When all steps are resolved.** An accepted workspace has a setup, and its projects have
different configurations just when no list of the matrix has an entry twice. Just then, too, a
generation that succeeds resolves all steps of a project, unless the project has no steps. -/
theorem isResolved_iff_hasDistinctAxes {w : Workspace} (manifest : w.manifest.validate = .ok ())
    (workspace : w.validate = .ok ()) :
    ∃ setups, ofWorkspace w = .ok setups ∧
      (∀ setup ∈ setups, (setup.project.configurations.map (·.target)).Nodup ↔
        w.manifest.HasDistinctAxes) ∧
      ∀ (name : String) (fs : FileSystem) (stats : GenerationStats),
        ((solution name setups).generate fs).result = .ok stats →
        ∀ m ∈ ((solution name setups).generate fs).solution.members,
          (∀ conf ∈ m.project.configurations, ∀ step ∈ conf.steps, step.isResolved = true) ↔
            w.manifest.HasDistinctAxes ∨ ∀ conf ∈ m.project.configurations, conf.steps = [] := by
  obtain ⟨setups, hsetups, hprojects⟩ := ofWorkspace_ok workspace
  have haxes := Manifest.nodup_targets_iff manifest
  refine ⟨setups, hsetups, ?_, ?_⟩
  · intro setup hsetup
    obtain ⟨p, hp⟩ := project_of_mem hprojects hsetup
    rw [hp, targets_projectOf, haxes]
  · intro name fs stats h m hm
    obtain ⟨g, hgenerate, htargets⟩ := exists_generates manifest hprojects h hm
    rw [hgenerate.isResolved_iff, htargets, haxes]

/-! ## 3. A platform named twice -/

def workspaceFor (platforms : List Platform) : Workspace where
  manifest := {
    solution := {
      name := "sample"
      platforms
      devEnvs := [.vs2022]
      optimizations := [.debug] }
    projects := [{
      name := "app"
      path := none
      sourceRoots := []
      extensions := []
      exclude := []
      excludeRegex := []
      dependencies := []
      includePaths := []
      privateIncludePaths := []
      defines := ["APP"]
      exportDefines := []
      precompiledHeader := none
      precompiledSource := none
      projectDir := none
      intermediateDir := none
      qt := some {
        binDir := some ⟨"qt"⟩
        exeSuffix := none
        sharedFolder := "moc"
        excludeRegex := []
        excludeFromCompileRegex := []
        scanExtensions := []
        placeholders := true
        additionalDefines := [] }
      proto := none }] }
  settings := .empty
  root := ⟨"/work"⟩

def workspaceFiles : FileSystem where
  workingDirectory := ["work"]
  entries := [
    (["work"], .directory), (["work", "app"], .directory),
    (["work", "app", "widget.h"], .file [0x51, 0x5F, 0x4F, 0x42, 0x4A, 0x45, 0x43, 0x54])]

def setupsFor (platforms : List Platform) : List Setup :=
  (ofWorkspace (workspaceFor platforms)).toOption.getD []

def twoStepsStats : GenerationStats where
  projects := 1
  sourceFiles := 1
  generatedFiles := 1
  steps := [(.metaObjectCompile, 2)]

theorem isResolved_iff_hasDistinctAxes_different :
    let w := workspaceFor [.win64, .linux]
    let g := (solution "sample" (setupsFor [.win64, .linux])).generate workspaceFiles
    w.manifest.validate = .ok () ∧ w.validate = .ok () ∧ g.result = .ok twoStepsStats ∧
      ∀ m ∈ g.solution.members, ∀ conf ∈ m.project.configurations, ∀ step ∈ conf.steps,
        step.isResolved = true := by
  intro w g
  have manifest : w.manifest.validate = .ok () := by decide +kernel
  have workspace : w.validate = .ok () := by decide +kernel
  have result : g.result = .ok twoStepsStats := by decide +kernel
  obtain ⟨setups, hsetups, -, hresolved⟩ := isResolved_iff_hasDistinctAxes manifest workspace
  obtain rfl : setupsFor [.win64, .linux] = setups := by
    rw [setupsFor, hsetups]
    rfl
  have distinct : w.manifest.HasDistinctAxes := ⟨by decide, by decide, by decide⟩
  exact ⟨manifest, workspace, result, fun m hm =>
    (hresolved "sample" workspaceFiles twoStepsStats result m hm).2 (.inl distinct)⟩

/-- Validation accepts a platform that is named twice. The project then has two configurations for
one target, and generation succeeds without a bundle for the step of the second. -/
theorem exists_unresolved_of_repeated_platform :
    let w := workspaceFor [.win64, .win64]
    let g := (solution "sample" (setupsFor [.win64, .win64])).generate workspaceFiles
    w.manifest.validate = .ok () ∧ w.validate = .ok () ∧
      ofWorkspace w = .ok (setupsFor [.win64, .win64]) ∧
      (∃ setup ∈ setupsFor [.win64, .win64],
        ¬ (setup.project.configurations.map (·.target)).Nodup) ∧
      g.result = .ok twoStepsStats ∧
      ∃ m ∈ g.solution.members, ∃ conf ∈ m.project.configurations, ∃ step ∈ conf.steps,
        step.isResolved = false := by
  intro w g
  exact ⟨by decide +kernel, by decide +kernel, rfl, by decide +kernel, by decide +kernel,
    by decide +kernel⟩

end Setup

end BuildSteps
