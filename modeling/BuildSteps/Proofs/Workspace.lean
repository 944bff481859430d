import BuildSteps.Proofs.Dependency.Success
import BuildSteps.Proofs.Setup
import BuildSteps.Proofs.Solution.Unresolved

/-!
# What loading a workspace rules out

A manifest is checked before anything is made of it. Names are different, dependencies are known,
all projects have the same targets, and every project that needs a folder of Qt generators has one.
So the projects of a loaded workspace fit together, and cycles are left to be found.
-/

namespace BuildSteps

/-! ## 1. Loaded workspaces -/

theorem Manifest.validate_of_load {fs : FileSystem} {file : Path} {m : Manifest}
    (h : Manifest.load fs file = .ok m) : m.validate = .ok () := by
  rw [load] at h
  split at h
  · cases h
  · split at h
    · cases h
    · next hvalid =>
      obtain rfl := Except.ok.inj h
      exact hvalid

/-- What a loaded workspace was made from, and the check that it has passed. -/
theorem Workspace.load_ok {fs : FileSystem} {env : Environment} {given : Option Path}
    {file : Path} {w : Workspace} (h : Workspace.load fs env given file = .ok w) :
    Manifest.load fs file = .ok w.manifest ∧
      (∃ user, loadSettings fs env given = .ok user ∧
        applyEnvironment env user = .ok w.settings) ∧
      w.root = folderOf file ∧ w.validate = .ok () := by
  rw [load] at h
  split at h
  · cases h
  · next manifest hmanifest =>
    split at h
    · cases h
    · next user huser =>
      split at h
      · cases h
      · next settings hsettings =>
        simp only at h
        split at h
        · cases h
        · next hvalid =>
          obtain rfl := Except.ok.inj h
          exact ⟨hmanifest, ⟨user, huser, hsettings⟩, rfl, hvalid⟩

/-- A manifest that can be read and is complete makes a workspace with the settings that apply. -/
theorem Workspace.exists_load_of_readText {fs : FileSystem} {env : Environment}
    {given : Option Path} {file : Path} {text : String} {P : Workspace → Prop}
    (hread : fs.readText file = .ok text)
    (h : ∃ entries ∈ Toml.parse? text, ∃ m ∈ (Manifest.asManifest (.table entries)).toOption,
      ∃ settings ∈ ((loadSettings fs env given).bind (applyEnvironment env)).toOption,
        m.validate = .ok () ∧ Workspace.validate ⟨m, settings, folderOf file⟩ = .ok () ∧
          P ⟨m, settings, folderOf file⟩) :
    ∃ w, load fs env given file = .ok w ∧ P w := by
  have ok_of_mem {ε α : Type} {e : Except ε α} {a : α} (ha : a ∈ e.toOption) : e = .ok a := by
    cases e with
    | error e => cases ha
    | ok b => rw [Option.some.inj ha]
  obtain ⟨entries, hparse, m, hm, settings, hsettings, hvalid, hcomplete, hP⟩ := h
  refine ⟨_, ?_, hP⟩
  have hdecode := ok_of_mem hm
  have happlied := ok_of_mem hsettings
  cases huser : loadSettings fs env given with
  | error e =>
    rw [huser] at happlied
    cases happlied
  | ok user =>
    rw [huser] at happlied
    have happlied : applyEnvironment env user = .ok settings := happlied
    simp only [load, Manifest.load, readDocument, hread, Option.mem_def.1 hparse, hdecode, hvalid,
      huser, happlied, hcomplete]

theorem Workspace.validate_of_load {fs : FileSystem} {env : Environment} {given : Option Path}
    {file : Path} {w : Workspace} (h : Workspace.load fs env given file = .ok w) :
    w.manifest.validate = .ok () ∧ w.validate = .ok () := by
  obtain ⟨hmanifest, -, -, hvalid⟩ := load_ok h
  exact ⟨Manifest.validate_of_load hmanifest, hvalid⟩

/-! ## 2. Their projects -/

namespace Setup

variable {w : Workspace}

-- a configuration repeats what the manifest says of its project
theorem mem_configurations_projectOf {p : ProjectManifest} {conf : Configuration}
    (h : conf ∈ (projectOf w p).configurations) :
    conf.target ∈ w.manifest.targets ∧ conf.dependencies = p.dependencies := by
  obtain ⟨target, htarget, rfl⟩ := List.mem_map.1 h
  exact ⟨htarget, rfl⟩

theorem exists_configuration?_projectOf (p : ProjectManifest) {target : Target}
    (h : target ∈ w.manifest.targets) :
    ∃ conf, (projectOf w p).configuration? target = some conf := by
  rw [← Option.isSome_iff_exists, Project.configuration?, List.find?_isSome]
  rw [← targets_projectOf w p] at h
  obtain ⟨conf, hconf, htarget⟩ := List.mem_map.1 h
  exact ⟨conf, hconf, decide_eq_true htarget⟩

theorem closed_projectOf (manifest : w.manifest.validate = .ok ()) :
    Resolution.Closed (w.manifest.projects.map (projectOf w)) := by
  intro project hproject conf hconf dependency hdependency
  obtain ⟨p, hp, rfl⟩ := List.mem_map.1 hproject
  obtain ⟨htarget, hsame⟩ := mem_configurations_projectOf hconf
  rw [hsame] at hdependency
  have hname := Manifest.mem_names_of_validate manifest hp hdependency
  -- the last project with the name has the target, as all projects have
  have hfound : ((w.manifest.projects.map (projectOf w)).reverse.find?
      (·.name == dependency)).isSome = true := by
    rw [List.find?_isSome]
    obtain ⟨other, hother, hsame⟩ := List.mem_map.1 hname
    exact ⟨projectOf w other, List.mem_reverse.2 (List.mem_map_of_mem hother),
      beq_iff_eq.2 hsame⟩
  obtain ⟨source, hsource⟩ := Option.isSome_iff_exists.1 hfound
  obtain ⟨other, -, rfl⟩ := List.mem_map.1 (List.mem_reverse.1 (List.mem_of_find?_eq_some hsource))
  obtain ⟨found, hconfiguration⟩ := exists_configuration?_projectOf other htarget
  exact ⟨found, by rw [Resolution.configurationOf?, hsource, Option.bind_some, hconfiguration]⟩

/-- Projects depend on each other as the manifest says. -/
theorem dependsOn_projectOf (manifest : w.manifest.validate = .ok ()) :
    DependsOn (w.manifest.projects.map (projectOf w)) = w.manifest.DependsOn := by
  have distinct := nodup_names_projectOf manifest
  funext name dependency
  apply propext
  constructor
  · rintro ⟨project, hproject, conf, hconf, hdependency⟩
    have hname := List.find?_some hproject
    obtain ⟨p, hp, rfl⟩ := List.mem_map.1 (List.mem_reverse.1 (List.mem_of_find?_eq_some hproject))
    rw [(mem_configurations_projectOf hconf).2] at hdependency
    exact ⟨p, hp, beq_iff_eq.1 hname, hdependency⟩
  · rintro ⟨p, hp, rfl, hdependency⟩
    obtain ⟨i, hi⟩ := List.mem_iff_getElem?.1 (List.mem_map_of_mem (f := projectOf w) hp)
    obtain ⟨project, hi', -, hfind⟩ :=
      Resolution.indexOf?_eq_some (Resolution.indexOf?_of_nodup distinct hi)
    obtain rfl := Option.some.inj (hi.symm.trans hi')
    -- there is a target, and so a configuration that lists the dependency
    obtain ⟨target, htarget⟩ := List.exists_mem_of_ne_nil _ (Manifest.targets_ne_nil manifest)
    exact ⟨projectOf w p, hfind, configuration p (w.projectRoot p) target,
      List.mem_map_of_mem htarget, hdependency⟩

end Setup

/-! ## 3. Their generation -/

/-- Where dependencies lead somewhere and names are different, generation fails while it collects or
for a cycle. -/
theorem Solution.generate_error_of_closed {s : Solution} {fs : FileSystem} {e : BuildError}
    (closed : Resolution.Closed s.projects) (distinct : (s.projects.map (·.name)).Nodup)
    (h : (s.generate fs).result = .error e) :
    e.OfCollection ∨ ∃ cycle, e = .circularDependency cycle := by
  cases hcollect : s.collect fs with
  | error g =>
    obtain ⟨e', he, hof⟩ := ofCollection_of_collect hcollect
    rw [generate, hcollect] at h
    obtain rfl := Except.error.inj (he.symm.trans h)
    exact .inl hof
  | ok o =>
    have hoffer := (collect_tabulates hcollect).1
    rcases (generate_error_iff hcollect).1 h with hfail | ⟨projects, members, hresolve, hfail⟩
    · rcases resolveDependencies_of_closed (closed.congr hoffer.symm) with
        ⟨-, hok⟩ | ⟨-, cycle, hcycle⟩
      · rw [hok] at hfail
        cases hfail
      · exact .inr ⟨cycle, Except.error.inj (hfail.symm.trans hcycle)⟩
    · obtain ⟨name, target, rfl⟩ :=
        (finalizeMembers_unresolved_iff hcollect hresolve hfail).1 e rfl
      exact absurd h (generate_ne_unresolved distinct name target)

namespace Workspace

/-- **Nothing but cycles is left to resolution.** A workspace that was loaded has a setup for each
project, with a folder of generators where Qt is used. Resolving the projects succeeds when no
project depends on itself, directly or not, and reports a cycle otherwise; a generation never meets a
dependency without a project or a project without a configuration. -/
theorem resolves_iff_acyclic {files : FileSystem} {env : Environment} {given : Option Path}
    {file : Path} {w : Workspace} (loaded : Workspace.load files env given file = .ok w) :
    ∃ setups, Setup.ofWorkspace w = .ok setups ∧
      let projects := setups.map (·.project)
      let dependsOn := w.manifest.DependsOn
      ((resolveDependencies projects).1 = .ok () ↔
        ∀ name, ¬ Relation.TransGen dependsOn name name) ∧
      ((∃ cycle, (resolveDependencies projects).1 = .error (.circularDependency cycle)) ↔
        ∃ name, Relation.TransGen dependsOn name name) ∧
      (∀ p ∈ w.manifest.projects, p.qt.isSome = true → ∃ dir, w.qtBinDir p = .ok dir) ∧
      ∀ (name : String) (fs : FileSystem) (e : BuildError),
        ((Setup.solution name setups).generate fs).result = .error e →
          (∀ project, e ≠ .unknownProject project) ∧
          (∀ dependency dependent, e ≠ .unknownDependency dependency dependent) ∧
          ∀ project target, e ≠ .missingConfiguration project target := by
  obtain ⟨manifest, workspace⟩ := validate_of_load loaded
  obtain ⟨setups, hsetups, hprojects⟩ := Setup.ofWorkspace_ok workspace
  have closed := Setup.closed_projectOf manifest
  have distinct := Setup.nodup_names_projectOf manifest
  have hcases := resolveDependencies_of_closed closed
  rw [Setup.dependsOn_projectOf manifest, ← hprojects] at hcases
  refine ⟨setups, hsetups, ?_, ?_, fun p => qtBinDir_of_validate workspace, ?_⟩
  · rcases hcases with ⟨hacyclic, hok⟩ | ⟨⟨name, hname⟩, cycle, hcycle⟩
    · exact ⟨fun _ => hacyclic, fun _ => hok⟩
    · refine ⟨fun hok => ?_, fun hacyclic => absurd hname (hacyclic name)⟩
      rw [hcycle] at hok
      cases hok
  · rcases hcases with ⟨hacyclic, hok⟩ | ⟨hname, cycle, hcycle⟩
    · refine ⟨fun ⟨cycle, hcycle⟩ => ?_, fun ⟨name, hname⟩ => absurd hname (hacyclic name)⟩
      rw [hok] at hcycle
      cases hcycle
    · exact ⟨fun _ => hname, fun _ => ⟨cycle, hcycle⟩⟩
  · intro name fs e h
    rw [← hprojects, ← Setup.projects_solution name] at closed distinct
    rcases Solution.generate_error_of_closed closed distinct h with hof | ⟨cycle, rfl⟩
    · cases hof <;> simp
    · simp

def linkedFiles : FileSystem where
  workingDirectory := []
  entries := [(["stepgen.toml"], .file (Text.join "\n" [
    "[solution]", "name = \"sample\"", "optimizations = [\"debug\"]",
    "[[project]]", "name = \"app\"", "dependencies = [\"base\", \"base\"]",
    "[project.qt]", "bin_dir = \"qt\"", "shared_folder = \"moc\"",
    "[[project]]", "name = \"base\""]).toUTF8.toList)]

def linkedWorkspace : Workspace :=
  let w := Setup.workspaceFor [.win64]
  { w with
    root := ⟨"."⟩
    manifest := { w.manifest with
      projects := w.manifest.projects.flatMap fun p =>
        [{ p with dependencies := ["base", "base"], defines := [] },
          { p with name := "base", defines := [], qt := none }] } }

theorem resolves_iff_acyclic_linked :
    Workspace.load linkedFiles ⟨[]⟩ none ⟨"stepgen.toml"⟩ = .ok linkedWorkspace ∧
      (∀ name, ¬ Relation.TransGen linkedWorkspace.manifest.DependsOn name name) ∧
      ∀ p ∈ linkedWorkspace.manifest.projects, p.qt.isSome = true →
        ∃ dir, linkedWorkspace.qtBinDir p = .ok dir := by
  have loaded : Workspace.load linkedFiles ⟨[]⟩ none ⟨"stepgen.toml"⟩ = .ok linkedWorkspace := by
    decide +kernel
  have resolved : (resolveDependencies
      (((Setup.ofWorkspace linkedWorkspace).toOption.getD []).map (·.project))).1 = .ok () := by
    decide +kernel
  obtain ⟨setups, hsetups, hacyclic, -, hfolders, -⟩ := resolves_iff_acyclic loaded
  rw [hsetups] at resolved
  exact ⟨loaded, hacyclic.1 resolved, hfolders⟩

end Workspace

end BuildSteps
