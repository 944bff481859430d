import BuildSteps.Proofs.Dependency.Idempotence
import BuildSteps.Solution

/-!
# What resolution and finalization look at

An outline of a project leaves out its source files and shows the programs of its steps through a
function. Resolution and finalization look at neither, so that they do to an outline what they do to
the project.
-/

namespace BuildSteps

/-! ## 1. Outlines -/

def Step.mapExecutable (f : Path → Path) (step : Step) : Step :=
  { step with executable := f step.executable }

def Configuration.mapExecutables (f : Path → Path) (conf : Configuration) : Configuration :=
  { conf with steps := conf.steps.map (·.mapExecutable f) }

/-- A project without its source files and with programs shown through a function. -/
def Project.outline (f : Path → Path) (project : Project) : Project :=
  { project with
    sourceFiles := []
    configurations := project.configurations.map (·.mapExecutables f) }

def Solution.Member.outline (f : Path → Path) (m : Solution.Member) : Solution.Member :=
  { m with project := m.project.outline f }

variable (f : Path → Path)

@[simp] theorem Step.attach_mapExecutable (step : Step) (bundle : Bundle) :
    (step.mapExecutable f).attach bundle = (step.attach bundle).mapExecutable f := by
  rw [attach, attach]
  split
  · next h => rw [if_pos (show step.resolved.isSome = true from h)]
  · next h =>
    rw [if_neg (show ¬ step.resolved.isSome = true from h)]
    rfl

theorem Project.offer_outline (project : Project) : (project.outline f).offer = project.offer := by
  rw [offer, offer, outline, List.map_map]
  rfl

/-! ## 2. Resolution -/

namespace Resolution

theorem map_offer_outline (projects : List Project) :
    (projects.map (·.outline f)).map Project.offer = projects.map Project.offer := by
  rw [List.map_map]
  exact List.map_congr_left fun project _ => project.offer_outline f

theorem resolveConfiguration_mapExecutables (projects : List Project) (conf : Configuration) :
    resolveConfiguration projects (conf.mapExecutables f) =
      (resolveConfiguration projects conf).map (·.mapExecutables f) := by
  have htarget : (conf.mapExecutables f).target = conf.target := rfl
  have hdependencies : (conf.mapExecutables f).dependencies = conf.dependencies := rfl
  rw [resolveConfiguration, resolveConfiguration, htarget, hdependencies]
  cases transitiveDependencies projects conf.target conf.dependencies with
  | error e => rfl
  | ok indices => rfl

theorem resolveConfigurations_outline (projects : List Project) (confs : List Configuration) :
    resolveConfigurations (projects.map (·.outline f)) (confs.map (·.mapExecutables f)) =
      ((resolveConfigurations projects confs).1,
        (resolveConfigurations projects confs).2.map (·.mapExecutables f)) := by
  induction confs with
  | nil => rfl
  | cons conf confs ih =>
    rw [List.map_cons, resolveConfigurations, resolveConfigurations,
      resolveConfiguration_congr (map_offer_outline f projects),
      resolveConfiguration_mapExecutables]
    cases resolveConfiguration projects conf with
    | error e => rfl
    | ok resolved =>
      simp only [Except.map, ih]
      rfl

theorem resolveProject_outline (projects : List Project) (i : Nat) :
    resolveProject (projects.map (·.outline f)) i =
      ((resolveProject projects i).1, (resolveProject projects i).2.map (·.outline f)) := by
  rw [resolveProject, resolveProject, List.getElem?_map]
  cases projects[i]? with
  | none => rfl
  | some project =>
    have hconfs := resolveConfigurations_outline f projects project.configurations
    simp only [Option.map_some]
    rw [Project.outline, hconfs, List.map_set]
    rfl

theorem resolveAll_outline (names : List String) (projects : List Project) :
    resolveAll names (projects.map (·.outline f)) =
      ((resolveAll names projects).1, (resolveAll names projects).2.map (·.outline f)) := by
  induction names generalizing projects with
  | nil => rfl
  | cons name names ih =>
    rw [resolveAll, resolveAll, indexOf?_congr (map_offer_outline f projects)]
    cases indexOf? projects name with
    | none => exact ih projects
    | some i =>
      simp only [resolveProject_outline]
      obtain ⟨result, between⟩ := resolveProject projects i
      cases result with
      | error e => rfl
      | ok => exact ih between

end Resolution

theorem resolveDependencies_outline (projects : List Project) :
    resolveDependencies (projects.map (·.outline f)) =
      ((resolveDependencies projects).1, (resolveDependencies projects).2.map (·.outline f)) := by
  rw [resolveDependencies, resolveDependencies,
    DependencyGraph.ofProjects_congr (Resolution.map_offer_outline f projects)]
  split
  · rfl
  · split
    · rfl
    · exact Resolution.resolveAll_outline f _ projects

/-! ## 3. Finalization -/

namespace Finalization

theorem attachAt_mapExecutable (bundle : Bundle) (steps : List Step) (index : Nat) :
    attachAt bundle (steps.map (·.mapExecutable f)) index =
      (attachAt bundle steps index).map (·.mapExecutable f) := by
  rw [attachAt, attachAt, List.getElem?_map]
  cases steps[index]? with
  | none => rfl
  | some step =>
    simp only [Option.map_some, Step.attach_mapExecutable]
    rw [List.map_set]

theorem attachSteps_mapExecutables (additional : List AdditionalDefinition) (indices : List Nat)
    (conf : Configuration) :
    attachSteps additional indices (conf.mapExecutables f) =
      (attachSteps additional indices conf).mapExecutables f := by
  have hsteps (steps : List Step) :
      indices.foldl (attachAt (conf.bundle additional)) (steps.map (·.mapExecutable f)) =
        (indices.foldl (attachAt (conf.bundle additional)) steps).map (·.mapExecutable f) := by
    induction indices generalizing steps with
    | nil => rfl
    | cons index indices ih =>
      rw [List.foldl_cons, attachAt_mapExecutable, ih, List.foldl_cons]
  -- the bundle does not depend on the steps
  have hsame : indices.foldl (attachAt ((conf.mapExecutables f).bundle additional))
      (conf.mapExecutables f).steps = _ := hsteps conf.steps
  rw [attachSteps, hsame]
  rfl

theorem configuration?_outline (project : Project) (target : Target) :
    (project.outline f).configuration? target =
      (project.configuration? target).map (·.mapExecutables f) := by
  rw [Project.configuration?, Project.outline, List.find?_map]
  rfl

theorem alterConfigurations_mapExecutables {change : Configuration → Configuration}
    (hchange : ∀ conf, change (conf.mapExecutables f) = (change conf).mapExecutables f)
    (target : Target) (confs : List Configuration) :
    Project.alterConfigurations target change (confs.map (·.mapExecutables f)) =
      (Project.alterConfigurations target change confs).map (·.mapExecutables f) := by
  induction confs with
  | nil => rfl
  | cons conf confs ih =>
    rw [List.map_cons, Project.alterConfigurations, Project.alterConfigurations, hchange, ih]
    show (if conf.target = target then _ else _) = _
    split <;> rfl

theorem alterConfiguration_outline {change : Configuration → Configuration}
    (hchange : ∀ conf, change (conf.mapExecutables f) = (change conf).mapExecutables f)
    (project : Project) (target : Target) :
    (project.outline f).alterConfiguration target change =
      (project.alterConfiguration target change).outline f := by
  rw [Project.alterConfiguration, Project.outline, alterConfigurations_mapExecutables f hchange]
  rfl

theorem finalizeEntries_outline (additional : List AdditionalDefinition) (updated : Nat)
    (project : Project) (entries : List StepTable.Entry) :
    finalizeEntries additional updated (project.outline f) entries =
      ((finalizeEntries additional updated project entries).1,
        (finalizeEntries additional updated project entries).2.outline f) := by
  induction entries generalizing updated project with
  | nil => rfl
  | cons entry entries ih =>
    rw [finalizeEntries, finalizeEntries, configuration?_outline]
    cases project.configuration? entry.target with
    | none => rfl
    | some conf =>
      have hresolved : (conf.mapExecutables f).resolved = conf.resolved := rfl
      have hlength : (conf.mapExecutables f).steps.length = conf.steps.length := List.length_map _
      simp only [Option.map_some, hresolved, hlength]
      split
      · rw [alterConfiguration_outline f (attachSteps_mapExecutables f additional entry.steps), ih]
      · rfl

end Finalization

theorem Tool.finalize_outline (tool : Tool) (table : StepTable) (project : Project) :
    tool.finalize table (project.outline f) =
      ((tool.finalize table project).1, (tool.finalize table project).2.outline f) := by
  rw [finalize, finalize, finalizeSteps, finalizeSteps, Finalization.finalizeEntries_outline]
  obtain ⟨result, after⟩ :=
    Finalization.finalizeEntries tool.additional 0 project table.entries
  cases result <;> rfl

namespace Solution

theorem finalizeTools_outline (project : Project) (collected : List (Tool × StepTable)) :
    finalizeTools (project.outline f) collected =
      ((finalizeTools project collected).1, (finalizeTools project collected).2.outline f) := by
  induction collected generalizing project with
  | nil => rfl
  | cons entry collected ih =>
    rw [finalizeTools, finalizeTools, Tool.finalize_outline]
    obtain ⟨result, after⟩ := entry.1.finalize entry.2 project
    cases result with
    | error e => rfl
    | ok => exact ih after

theorem finalizeMembers_outline (entries : List (Member × List StepTable)) :
    finalizeMembers (entries.map (Prod.map (·.outline f) id)) =
      ((finalizeMembers entries).1, (finalizeMembers entries).2.map (·.outline f)) := by
  induction entries with
  | nil => rfl
  | cons entry entries ih =>
    rw [List.map_cons, Prod.map, finalizeMembers, finalizeMembers]
    simp only [Member.outline, finalizeTools_outline, id]
    obtain ⟨result, after⟩ := finalizeTools entry.1.project (entry.1.tools.zip entry.2)
    cases result with
    | error e =>
      simp only [List.map_cons, List.map_map]
      rfl
    | ok =>
      simp only [Member.outline] at ih
      simp only [ih]
      rfl

theorem withProjects_outline (members : List Member) (projects : List Project) :
    withProjects (members.map (·.outline f)) (projects.map (·.outline f)) =
      (withProjects members projects).map (·.outline f) := by
  rw [withProjects, withProjects, List.zipWith_map, List.map_zipWith]
  rfl

/-! ## 4. Solutions -/

variable {f : Path → Path}

theorem finalize_ok {s : Solution} {o : Gathered} {projects : List Project} {members : List Member}
    (hresolve : resolveDependencies (o.collected.map (·.project)) = (.ok (), projects))
    (hmembers : finalizeMembers ((withProjects o.collected projects).zip o.tables) =
      (.ok (), members)) :
    (∃ stats, (s.finalize o).result = .ok stats) ∧ (s.finalize o).solution.members = members := by
  rw [finalize, hresolve]
  simp only [hmembers]
  exact ⟨⟨_, rfl⟩, trivial⟩

theorem finalize_congr (s : Solution) (o o' : Gathered)
    (houtlines : o'.collected.map (·.outline f) = o.collected.map (·.outline f))
    (htables : o'.tables = o.tables) {projects : List Project} {members : List Member}
    (hresolve : resolveDependencies (o.collected.map (·.project)) = (.ok (), projects))
    (hmembers : finalizeMembers ((withProjects o.collected projects).zip o.tables) =
      (.ok (), members)) :
    (∃ stats, (s.finalize o').result = .ok stats) ∧
      (s.finalize o').solution.members.map (·.outline f) = members.map (·.outline f) := by
  have hprojects (o : Gathered) : (o.collected.map (·.project)).map (·.outline f) =
      (o.collected.map (·.outline f)).map (·.project) := by
    rw [List.map_map, List.map_map]
    rfl
  -- both resolutions are resolutions of the same outlines
  have houtline := resolveDependencies_outline f (o'.collected.map (·.project))
  rw [hprojects, houtlines, ← hprojects, resolveDependencies_outline, hresolve] at houtline
  obtain ⟨hresolved, hsame⟩ := Prod.mk.inj houtline
  generalize hresolve' : resolveDependencies (o'.collected.map (·.project)) = resolution
    at hresolved hsame
  obtain ⟨result, projects'⟩ := resolution
  obtain rfl : Except.ok () = result := hresolved
  -- and so are the finalizations that follow
  have houtline' := finalizeMembers_outline f ((withProjects o'.collected projects').zip o'.tables)
  rw [← List.zip_map_left, ← withProjects_outline, houtlines, htables, ← hsame,
    withProjects_outline, List.zip_map_left, finalizeMembers_outline, hmembers] at houtline'
  obtain ⟨hfinal, hsame'⟩ := Prod.mk.inj houtline'
  generalize hmembers' : finalizeMembers ((withProjects o'.collected projects').zip o.tables) =
    finalization at hfinal hsame'
  obtain ⟨result, members'⟩ := finalization
  obtain rfl : Except.ok () = result := hfinal
  rw [← htables] at hmembers'
  obtain ⟨hresult, hfinalized⟩ := finalize_ok (s := s) hresolve' hmembers'
  exact ⟨hresult, by rw [hfinalized]; exact hsame'.symm⟩

end Solution

end BuildSteps
