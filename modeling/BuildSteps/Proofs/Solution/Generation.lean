import BuildSteps.Proofs.Dependency.Resolution
import BuildSteps.Proofs.Project.Bundle
import BuildSteps.Proofs.Solution.Collection

/-!
# What a generation does to a solution

Collecting, resolving and finalizing touch the same configurations one after the other. Put
together, they leave each configuration with the steps that its tools have made, and each step of
the first configuration for a target with the bundle of that configuration.
-/

namespace BuildSteps.Solution

open Project Finalization

/-! ## 1. Finalization -/

/-- Tables that cover the steps made for a configuration attach its bundle to each step, with the
defines of the tool that has made the step. -/
theorem Covers.attachTables_eq {conf : Configuration} {target : Target} {start : Nat}
    {collected : List (Tool × StepTable)} {made : List Origin} {before : List Step}
    (h : Covers target start collected made) (htarget : conf.target = target)
    (hstart : before.length = start) (hsteps : conf.steps = before ++ made.map (·.step)) :
    attachTables collected conf = { conf with
      steps := before ++ made.map fun o => o.step.attach (conf.bundle o.tool.additional) } := by
  induction h generalizing conf before with
  | nil start =>
    rw [List.map_nil, List.append_nil] at hsteps
    rw [List.map_nil, List.append_nil, ← hsteps]
    rfl
  | @cons start tool table rest steps made hlists _ ih =>
    subst hstart
    -- the first table attaches to its stretch, and the rest goes on behind it
    have hfirst : (attachTable tool.additional table conf).steps =
        before ++ steps.map (·.attach (conf.bundle tool.additional)) ++ made.map (·.step) := by
      rw [attachTable, htarget, hsteps, List.map_append, List.map_map, Function.comp_def,
        List.map_id', attachWhere_stretch hlists, List.append_assoc]
    have hlength : (before ++ steps.map (·.attach (conf.bundle tool.additional))).length =
        before.length + steps.length := by rw [List.length_append, List.length_map]
    have hsame : (attachTable tool.additional table conf).target = target := htarget
    show attachTables rest (attachTable tool.additional table conf) = _
    rw [ih hsame hlength hfirst, List.map_append, List.map_map, List.append_assoc]
    rfl

theorem finalizeMembers_ok {entries : List (Member × List StepTable)} {members : List Member}
    (h : finalizeMembers entries = (.ok (), members)) :
    List.Forall₂ (fun entry m => m = { entry.1 with
      project := { entry.1.project with
        configurations := alterFirsts (attachTables (entry.1.tools.zip entry.2)) []
          entry.1.project.configurations } }) entries members := by
  induction entries generalizing members with
  | nil =>
    obtain rfl := (Prod.mk.inj h).2
    exact .nil
  | cons entry entries ih =>
    rw [finalizeMembers] at h
    split at h
    · cases h
    · next project hproject =>
      obtain ⟨hrest, rfl⟩ := Prod.mk.inj h
      rw [finalizeTools_ok hproject]
      exact .cons rfl (ih (Prod.ext hrest rfl))

/-! ## 2. All phases -/

def finish (made : Target → List Origin) (conf : Configuration) : Configuration :=
  { conf with
    steps := (made conf.target).map fun o => o.step.attach (conf.bundle o.tool.additional) }

/-- A configuration from before its tools have collected, and the same one when dependencies are
resolved. -/
def Becomes (projects : List Project) (tools : List Tool) (made : Target → List Origin)
    (conf conf' : Configuration) : Prop :=
  ∃ between, conf.Gains (tools.map Tool.folder) ((made conf.target).map (·.step)) between ∧
    Resolution.TakesOver projects between conf'

/-- What generation makes of a member: its configurations have the steps made for them, and those
that are the first for their target have bundles attached. -/
structure Gathering.Generates (projects : List Project) (g : Gathering) (m : Member) : Prop where
  tools : m.tools = g.before.tools
  configurations : ∃ confs,
    List.Forall₂ (Becomes projects m.tools g.made) g.before.project.configurations confs ∧
      m.project.configurations = alterFirsts (finish g.made) [] confs

theorem Becomes.target {projects : List Project} {tools : List Tool} {made : Target → List Origin}
    {conf conf' : Configuration} (h : Becomes projects tools made conf conf') :
    conf'.target = conf.target := by
  obtain ⟨_, ⟨_, rfl⟩, _, _, -, -, -, -, rfl⟩ := h
  rfl

theorem targets_of_becomes {projects : List Project} {tools : List Tool}
    {made : Target → List Origin} {given confs : List Configuration}
    (h : List.Forall₂ (Becomes projects tools made) given confs) :
    confs.map (·.target) = given.map (·.target) :=
  List.Forall₂.map_eq (h.flip.imp fun _ _ => Becomes.target)

theorem Becomes.steps {projects : List Project} {tools : List Tool} {made : Target → List Origin}
    {conf conf' : Configuration} (h : Becomes projects tools made conf conf') :
    conf'.steps = conf.steps ++ (made conf.target).map (·.step) := by
  obtain ⟨_, ⟨_, rfl⟩, _, _, -, -, -, -, rfl⟩ := h
  rfl

-- a configuration to be finalized: it has the steps made for it, and tables cover them
theorem Gathering.covers_of_becomes {projects : List Project} {tools : List Tool} {g : Gathering}
    {confs : List Configuration} {conf : Configuration}
    (h : List.Forall₂ (Becomes projects tools g.made) g.before.project.configurations confs)
    (hconf : conf ∈ confs) :
    conf.steps = (g.made conf.target).map (·.step) ∧
      Covers conf.target 0 (g.before.tools.zip g.tables) (g.made conf.target) := by
  obtain ⟨given, hgiven, hbecome⟩ := h.flip.exists_of_mem hconf
  have hsteps := Becomes.steps hbecome
  have hcovers := g.gathers.covers given hgiven
  rw [g.clean given hgiven, List.nil_append] at hsteps
  rw [Becomes.target hbecome]
  exact ⟨hsteps, hcovers⟩

theorem Gathering.generates {projects : List Project} {g : Gathering} {project : Project}
    {m : Member} (h : Resolution.ResolvedTo projects g.project project)
    (hm : m = { g.before with
      project := { project with
        configurations := alterFirsts (attachTables (g.before.tools.zip g.tables)) []
          project.configurations } }) : g.Generates projects m := by
  obtain ⟨confs, rfl, hconfs⟩ := h
  subst hm
  -- what tools do and then resolution, configuration by configuration
  have hbecomes : List.Forall₂ (Becomes projects g.before.tools g.made)
      g.before.project.configurations confs :=
    g.gathers.gains.comp hconfs fun _ between _ hgains hresolved =>
      ⟨between, hgains, Resolution.takesOver_of_resolveConfiguration hresolved⟩
  refine ⟨rfl, confs, hbecomes, alterFirsts_congr fun conf hconf _ => ?_⟩
  obtain ⟨hsteps, hcovers⟩ := g.covers_of_becomes hbecomes hconf
  rw [hcovers.attachTables_eq rfl List.length_nil hsteps, finish, List.nil_append]

/-- Whatever relates the projects of gatherings to new ones relates them to what is finalized. -/
theorem forall₂_withProjects {R : Gathering → Project → Prop} {gatherings : List Gathering}
    {projects : List Project} (h : List.Forall₂ R gatherings projects) :
    List.Forall₂ (fun g entry => ∃ project, R g project ∧
        entry = ({ g.before with project }, g.tables)) gatherings
      ((withProjects (gatherings.map (·.after)) projects).zip (gatherings.map (·.tables))) := by
  induction h with
  | nil => exact .nil
  | @cons g project gatherings projects hfirst _ ih => exact .cons ⟨project, hfirst, rfl⟩ ih

theorem map_project_entries {α : Type} (f : Project → α) {members : List Member}
    {projects : List Project} {tables : List (List StepTable)}
    (hprojects : projects.length = members.length) (htables : tables.length = members.length) :
    ((withProjects members projects).zip tables).map (fun entry => f entry.1.project) =
      projects.map f := by
  induction projects generalizing members tables with
  | nil =>
    obtain rfl := List.length_eq_zero_iff.1 hprojects.symm
    rfl
  | cons project projects ih =>
    obtain ⟨m, members, rfl⟩ := List.exists_cons_of_length_eq_add_one hprojects.symm
    obtain ⟨first, tables, rfl⟩ := List.exists_cons_of_length_eq_add_one htables
    exact congrArg (f project :: ·) (ih (Nat.succ.inj hprojects) (Nat.succ.inj htables))

theorem collect_error {s : Solution} {fs : FileSystem} {g : Generated}
    (h : s.collect fs = .error g) : ∃ e, g.result = .error e := by
  rw [collect] at h
  split at h
  · next e members _ =>
    obtain rfl := Except.error.inj h
    exact ⟨e, rfl⟩
  · split at h
    · next e members made _ =>
      obtain rfl := Except.error.inj h
      exact ⟨e, rfl⟩
    · cases h

theorem generate_phases {s : Solution} {fs : FileSystem} {stats : GenerationStats}
    (h : (s.generate fs).result = .ok stats) :
    ∃ o projects, s.collect fs = .ok o ∧
      resolveDependencies (o.collected.map (·.project)) = (.ok (), projects) ∧
      finalizeMembers ((withProjects o.collected projects).zip o.tables) =
        (.ok (), (s.generate fs).solution.members) := by
  unfold generate at h ⊢
  split at h
  · next g hcollect =>
    obtain ⟨e, he⟩ := collect_error hcollect
    rw [he] at h
    cases h
  · next o hcollect =>
    unfold finalize at h ⊢
    split at h
    · cases h
    · next projects hprojects =>
      split at h
      · cases h
      · next members hmembers =>
        refine ⟨o, projects, hcollect, hprojects, ?_⟩
        simp only [hmembers]

theorem collect_phases {s : Solution} {fs : FileSystem} {o : Gathered}
    (h : s.collect fs = .ok o) :
    discoverMembers fs s.members = (.ok (), o.discovered) ∧
      collectMembers fs o.discovered = (.ok o.tables, o.collected, o.files) := by
  unfold collect at h
  split at h
  · cases h
  · next discovered hdiscover =>
    split at h
    · cases h
    · next tables collected made hcollect =>
      obtain rfl := Except.ok.inj h
      exact ⟨hdiscover, hcollect⟩

/-- Tools leave alone what dependents read. -/
theorem Gathering.offer_project (g : Gathering) : g.project.offer = g.before.project.offer := by
  obtain ⟨files, hproject⟩ := g.gathers.frame
  have hconfs : g.before.project.configurations.map Configuration.offer =
      g.project.configurations.map Configuration.offer := by
    apply List.Forall₂.map_eq
    apply g.gathers.gains.imp
    rintro conf _ ⟨_, rfl⟩
    rfl
  rw [hproject, Project.offer, ← hconfs]
  rfl

/-- A generation that succeeds, project by project. -/
theorem generate_members {s : Solution} {fs : FileSystem} {stats : GenerationStats}
    (names : (s.projects.map (·.name)).Nodup)
    (clean : ∀ project ∈ s.projects, ∀ conf ∈ project.configurations, conf.steps = [])
    (h : (s.generate fs).result = .ok stats) :
    ∃ (o : Gathered) (gatherings : List Gathering), s.collect fs = .ok o ∧
      gatherings.map (·.origins) = origins fs o.discovered ∧
      List.Forall₂ (fun m g => m.tools = g.before.tools ∧
        m.project.configurations = g.before.project.configurations) s.members gatherings ∧
      List.Forall₂ (Gathering.Generates s.projects) gatherings
        (s.generate fs).solution.members := by
  obtain ⟨o, resolved, hcollect, hresolve, hfinalize⟩ := generate_phases h
  obtain ⟨hdiscover, htools⟩ := collect_phases hcollect
  have hfound := discoverMembers_ok hdiscover
  -- discovery leaves the configurations alone
  have hclean : ∀ m ∈ o.discovered, ∀ conf ∈ m.project.configurations, conf.steps = [] := by
    intro m hm
    obtain ⟨given, hgiven, _, _, rfl⟩ := hfound.flip.exists_of_mem hm
    exact clean given.project (List.mem_map_of_mem hgiven)
  obtain ⟨gatherings, hbefore, hafter, htables, horigins⟩ := collectMembers_ok hclean htools
  have hprojects : o.collected.map (·.project) = gatherings.map (·.project) := by
    rw [← hafter, List.map_map]
    rfl
  -- nothing that resolution reads has changed since the start
  have hoffer : (gatherings.map (·.project)).map Project.offer = s.projects.map Project.offer := by
    rw [List.map_map, List.map_congr_left fun g _ => g.offer_project]
    have hgiven : s.members.map (·.project.offer) = o.discovered.map (·.project.offer) := by
      apply List.Forall₂.map_eq
      apply hfound.imp
      rintro m _ ⟨_, _, rfl⟩
      rfl
    rw [projects, List.map_map, Function.comp_def, hgiven, ← hbefore, List.map_map]
    rfl
  rw [hprojects] at hresolve
  rw [← Resolution.names_congr hoffer] at names
  have hresolved := Resolution.resolveAll_of_buildOrder names hresolve
  rw [List.forall₂_map_left_iff] at hresolved
  -- the projects that are finalized, with the tables of their tools
  have hentries := forall₂_withProjects (hresolved.imp fun _ _ hone => hone.congr hoffer)
  rw [hafter, htables] at hentries
  refine ⟨o, gatherings, hcollect, horigins, ?_, ?_⟩
  · rw [← hbefore, List.forall₂_map_right_iff] at hfound
    apply hfound.imp
    rintro m g ⟨_, _, hg⟩
    rw [hg]
    exact ⟨rfl, rfl⟩
  · refine hentries.comp (finalizeMembers_ok hfinalize) ?_
    rintro g _ m ⟨project, hproject, rfl⟩ hm
    exact Gathering.generates hproject hm

/-! ## 3. Finished steps -/

/-- A bundle with all that the steps of a configuration need: the folders of the tools of the
project, and what is public in the projects that the configuration depends on, directly or not. -/
structure Complete (projects : List Project) (tools : List Tool) (conf : Configuration)
    (bundle : Bundle) : Prop where
  folders : ∀ tool ∈ tools, tool.folder.isIn bundle.includePaths = true
  dependencies : ∀ name,
    Reachable (Resolution.dependenciesOf? projects conf.target) conf.dependencies name →
      ∃ source, Resolution.configurationOf? projects conf.target name = some source ∧
        (∀ path ∈ source.includePaths, path.isIn bundle.includePaths = true) ∧
        ∀ define ∈ source.exportDefines, Configuration.stripBlanks define ≠ "" →
          "-D" ++ Configuration.stripBlanks define ∈ Text.split ' ' bundle.defines

/-- What has become of a step that a tool has made for a configuration. -/
structure Finished (projects : List Project) (tools : List Tool) (conf : Configuration)
    (step : Step) (origin : Origin) : Prop where
  tool : origin.tool ∈ tools
  attached : step = origin.step.attach (conf.bundle origin.tool.additional)
  resolved : step.resolved = some (conf.bundle origin.tool.additional)
  complete : Complete projects tools conf (conf.bundle origin.tool.additional)

theorem Becomes.complete {projects : List Project} {tools : List Tool}
    {made : Target → List Origin} {conf conf' : Configuration}
    (h : Becomes projects tools made conf conf') (additional : List AdditionalDefinition) :
    Complete projects tools conf' (conf'.bundle additional) := by
  obtain ⟨between, hgains, htakes⟩ := h
  constructor
  · intro tool htool
    have hfolder : tool.folder.isIn conf'.privateIncludePaths = true := by
      obtain ⟨_, rfl⟩ := hgains
      obtain ⟨_, _, -, -, -, -, rfl⟩ := htakes
      rw [Path.isIn_insertAllLast]
      exact .inr (Path.isIn_iff.2 ⟨_, List.mem_map_of_mem htool, rfl⟩)
    exact Configuration.isIn_bundle_includePaths.2 (.inr (.inr hfolder))
  · intro name hname
    obtain ⟨source, hsource, hpaths, hdefines⟩ := htakes.takes hname
    refine ⟨source, hsource, fun path hpath => ?_, fun define hdefine hblank => ?_⟩
    · exact Configuration.isIn_bundle_includePaths.2 (.inr (.inl (hpaths path hpath)))
    · exact Configuration.mem_bundle_defines (hdefines define hdefine) hblank

/-- Where every configuration of a member has its own target, all its steps are finished. -/
theorem Gathering.Generates.finished {projects : List Project} {g : Gathering} {m : Member}
    (h : g.Generates projects m)
    (targets : (g.before.project.configurations.map (·.target)).Nodup) :
    List.Forall₂ (fun conf made => List.Forall₂ (Finished projects m.tools conf) conf.steps made)
      m.project.configurations g.origins := by
  obtain ⟨htools, confs, hbecomes, hconfs⟩ := h
  rw [← targets_of_becomes hbecomes] at targets
  rw [hconfs, alterFirsts_of_nodup targets, Gathering.origins, List.forall₂_map_left_iff,
    List.forall₂_map_right_iff]
  apply hbecomes.flip.imp
  intro conf' conf (hbecome : Becomes projects m.tools g.made conf conf')
  have hsteps : (finish g.made conf').steps = (g.made conf.target).map fun o =>
      o.step.attach (conf'.bundle o.tool.additional) := by
    rw [← hbecome.target]
    rfl
  rw [hsteps, List.forall₂_map_left_iff, List.forall₂_same]
  intro origin horigin
  obtain ⟨htool, hfresh⟩ := g.gathers.origin conf.target origin horigin
  have hcomplete := hbecome.complete origin.tool.additional
  refine ⟨htools ▸ htool, rfl, ?_, hcomplete.folders, hcomplete.dependencies⟩
  rw [Step.attach, hfresh]
  rfl

-- the second configuration for a target has as many steps as any other, and no bundle reaches them
theorem Gathering.Generates.steps_eq_nil_of_repeat {projects : List Project} {g : Gathering}
    {m : Member} (h : g.Generates projects m)
    (hrepeat : ¬ (g.before.project.configurations.map (·.target)).Nodup)
    (hresolved : ∀ conf ∈ m.project.configurations, ∀ step ∈ conf.steps, step.isResolved = true) :
    ∀ conf ∈ m.project.configurations, conf.steps = [] := by
  obtain ⟨-, confs, hbecomes, hconfs⟩ := h
  rw [← targets_of_becomes hbecomes] at hrepeat
  obtain ⟨late, hlate, hleft⟩ := exists_mem_alterFirsts (finish g.made) hrepeat
  have hnone : g.made late.target = [] := by
    apply List.eq_nil_iff_forall_not_mem.2
    intro origin horigin
    have hstep : origin.step ∈ late.steps := by
      rw [(g.covers_of_becomes hbecomes hlate).1]
      exact List.mem_map_of_mem horigin
    have hattached := hresolved late (hconfs ▸ hleft) origin.step hstep
    rw [Step.isResolved, (g.gathers.origin late.target origin horigin).2] at hattached
    cases hattached
  have hmade : ∀ target, g.made target = [] := by
    intro target
    have hlength := g.gathers.uniform target late.target
    rw [hnone] at hlength
    exact List.length_eq_zero_iff.1 hlength
  intro conf hconf
  rw [hconfs] at hconf
  rcases mem_of_mem_alterFirsts hconf with hmem | ⟨other, -, rfl⟩
  · rw [(g.covers_of_becomes hbecomes hmem).1, hmade]
    rfl
  · rw [finish, hmade]
    rfl

/-- The steps of a member are all resolved just when its configurations have different targets,
unless it has no steps at all. -/
theorem Gathering.Generates.isResolved_iff {projects : List Project} {g : Gathering} {m : Member}
    (h : g.Generates projects m) :
    (∀ conf ∈ m.project.configurations, ∀ step ∈ conf.steps, step.isResolved = true) ↔
      (g.before.project.configurations.map (·.target)).Nodup ∨
        ∀ conf ∈ m.project.configurations, conf.steps = [] := by
  constructor
  · intro hresolved
    by_cases htargets : (g.before.project.configurations.map (·.target)).Nodup
    · exact .inl htargets
    · exact .inr (h.steps_eq_nil_of_repeat htargets hresolved)
  · rintro (htargets | hsteps) conf hconf step hstep
    · obtain ⟨made, -, hmade⟩ := (h.finished htargets).exists_of_mem hconf
      obtain ⟨origin, -, hfinished⟩ := hmade.exists_of_mem hstep
      rw [Step.isResolved, hfinished.resolved]
      rfl
    · rw [hsteps conf hconf] at hstep
      cases hstep

def AllFinished (projects : List Project) (members : List Member)
    (made : List (List (List Origin))) : Prop :=
  List.Forall₂ (fun m made => List.Forall₂ (fun conf made =>
    List.Forall₂ (Finished projects m.tools conf) conf.steps made)
      m.project.configurations made) members made

/-- **Every step is finished.** Where every project has its own name, every configuration of a
project its own target and nothing has been made yet, a generation that succeeds leaves each
configuration with the steps that the tools of its project have made for it, and each step with the
bundle of the configuration as it then is. -/
theorem generate_ok {s : Solution} {fs : FileSystem} {stats : GenerationStats}
    (names : (s.projects.map (·.name)).Nodup)
    (targets : ∀ project ∈ s.projects, (project.configurations.map (·.target)).Nodup)
    (clean : ∀ project ∈ s.projects, ∀ conf ∈ project.configurations, conf.steps = [])
    (h : (s.generate fs).result = .ok stats) :
    ∃ o, s.collect fs = .ok o ∧
      AllFinished s.projects (s.generate fs).solution.members (origins fs o.discovered) := by
  obtain ⟨o, gatherings, hcollect, horigins, hgiven, hgenerates⟩ := generate_members names clean h
  have htargets : ∀ g ∈ gatherings, (g.before.project.configurations.map (·.target)).Nodup := by
    intro g hg
    obtain ⟨m, hm, -, hconfs⟩ := hgiven.flip.exists_of_mem hg
    exact hconfs ▸ targets m.project (List.mem_map_of_mem hm)
  refine ⟨o, hcollect, ?_⟩
  rw [AllFinished, ← horigins, List.forall₂_map_right_iff]
  have hall := (List.forall₂_and_left ..).2 ⟨htargets, hgenerates⟩
  exact hall.flip.imp fun m g hg => Gathering.Generates.finished hg.2 hg.1

def sample : Solution where
  name := "sample"
  members := [
    { project := { Project.create "app" ⟨"/app"⟩ with
        sourceFiles := [⟨"/app/widget.h"⟩, ⟨"/app/main.ui"⟩, ⟨"/app/message.proto"⟩]
        discovered := true
        configurations := [
          { Configuration.empty ⟨.win64, .vs2022, .debug⟩ with dependencies := ["base"] },
          { Configuration.empty ⟨.win64, .vs2022, .release⟩ with dependencies := ["base"] }] }
      tools := [
        .qt (.create ⟨"/qt"⟩ ⟨"/app/moc"⟩),
        .schema (.create ⟨"/app"⟩ ⟨"/app/out"⟩ ⟨"/bin/protoc"⟩ ⟨"/bin/protoc_d"⟩)] },
    { project := { Project.create "base" ⟨"/base"⟩ with
        discovered := true
        configurations := [
          { Configuration.empty ⟨.win64, .vs2022, .debug⟩ with
            includePaths := [⟨"/base/include"⟩]
            exportDefines := ["BASE"] },
          { Configuration.empty ⟨.win64, .vs2022, .release⟩ with
            includePaths := [⟨"/base/include"⟩] }] }
      tools := [] }]

def sampleFiles : FileSystem where
  workingDirectory := []
  entries := [
    (["app"], .directory),
    (["app", "widget.h"], .file [0x51, 0x5F, 0x4F, 0x42, 0x4A, 0x45, 0x43, 0x54])]

def sampleStats : GenerationStats where
  projects := 2
  sourceFiles := 3
  generatedFiles := 3
  steps := [(.metaObjectCompile, 2), (.uiCompile, 2), (.schemaCompile, 2)]

theorem generate_ok_sample :
    (sample.projects.map (·.name)).Nodup ∧
    (∀ project ∈ sample.projects, (project.configurations.map (·.target)).Nodup) ∧
    (∀ project ∈ sample.projects, ∀ conf ∈ project.configurations, conf.steps = []) ∧
    (sample.generate sampleFiles).result = .ok sampleStats ∧
    ∃ o, sample.collect sampleFiles = .ok o ∧
      AllFinished sample.projects (sample.generate sampleFiles).solution.members
        (origins sampleFiles o.discovered) := by
  have names : (sample.projects.map (·.name)).Nodup := by decide
  have targets : ∀ project ∈ sample.projects, (project.configurations.map (·.target)).Nodup := by
    decide
  have clean : ∀ project ∈ sample.projects, ∀ conf ∈ project.configurations, conf.steps = [] := by
    decide
  have stats : (sample.generate sampleFiles).result = .ok sampleStats := by decide +kernel
  exact ⟨names, targets, clean, stats, generate_ok names targets clean stats⟩

end BuildSteps.Solution
