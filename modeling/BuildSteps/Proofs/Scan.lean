import BuildSteps.CommandLine.Run
import BuildSteps.Proofs.Tool.Additions
import BuildSteps.Proofs.Workspace

/-!
# Scans and generation

A scan classifies the files of each project as it finds them. Generation classifies them after other
tools and other projects have added source files, folders and placeholders. None of this makes a
difference: where a generation succeeds, a scan succeeds too and lists the files of its steps.
-/

namespace BuildSteps

/-! ## 1. Reports and steps -/

def StepKind.filesOf (kind : StepKind) (jobs : List (StepKind × Path)) : List Path :=
  (jobs.filter (·.1 = kind)).map (·.2)

def Step.listing (step : Step) : (StepKind × Path) × StepFilter := (step.job, step.filter)

/-- Whether a report lists, generator by generator, the files that the steps of a configuration are
made on. Meta-object steps are compared as builds without project files show them, and as project
files do. -/
structure ScanReport.Agrees (report : ScanReport) (steps : List Step) : Prop where
  moc :
    StepKind.metaObjectCompile.filesOf (Step.shownJobs StepFilter.inFastBuild steps) = report.moc
  mocInProjectFiles :
    StepKind.metaObjectCompile.filesOf (Step.shownJobs StepFilter.inProjectFiles steps) = report.moc
  rcc : StepKind.resourceCompile.filesOf (steps.map Step.job) = report.rcc
  uic : StepKind.uiCompile.filesOf (steps.map Step.job) = report.uic
  protoc : StepKind.schemaCompile.filesOf (steps.map Step.job) = report.protoc

namespace StepKind

variable {kind : StepKind}

theorem filesOf_append (jobs others : List (StepKind × Path)) :
    kind.filesOf (jobs ++ others) = kind.filesOf jobs ++ kind.filesOf others := by
  rw [filesOf, filesOf, filesOf, List.filter_append, List.map_append]

theorem filesOf_eq_nil {jobs : List (StepKind × Path)} (h : ∀ job ∈ jobs, job.1 ≠ kind) :
    kind.filesOf jobs = [] := by
  rw [filesOf, List.filter_eq_nil_iff.2, List.map_nil]
  exact fun job hjob hkind => h job hjob (of_decide_eq_true hkind)

@[simp] theorem filesOf_map (files : List Path) (other : StepKind) :
    kind.filesOf (files.map (other, ·)) = if other = kind then files else [] := by
  split
  · next hsame =>
    rw [filesOf, List.filter_eq_self.2, List.map_map]
    · exact List.map_id _
    · intro job hjob
      obtain ⟨file, -, rfl⟩ := List.mem_map.1 hjob
      exact decide_eq_true hsame
  · next hother =>
    apply filesOf_eq_nil
    intro job hjob
    obtain ⟨file, -, rfl⟩ := List.mem_map.1 hjob
    exact hother

theorem mem_filesOf {jobs : List (StepKind × Path)} {file : Path} :
    file ∈ kind.filesOf jobs ↔ (kind, file) ∈ jobs := by
  rw [filesOf, List.mem_map]
  constructor
  · rintro ⟨⟨other, _⟩, hjob, rfl⟩
    obtain ⟨hmem, hkind⟩ := List.mem_filter.1 hjob
    obtain rfl : other = kind := of_decide_eq_true hkind
    exact hmem
  · exact fun hmem => ⟨(kind, file), List.mem_filter.2 ⟨hmem, decide_eq_true rfl⟩, rfl⟩

end StepKind

namespace Step

theorem shownJobs_eq (shown : StepFilter → Bool) (steps : List Step) :
    shownJobs shown steps = ((steps.map listing).filter (shown ·.2)).map (·.1) := by
  rw [List.filter_map, List.map_map]
  rfl

theorem map_job_eq (steps : List Step) : steps.map job = (steps.map listing).map (·.1) := by
  rw [List.map_map]
  rfl

theorem shownJobs_append (shown : StepFilter → Bool) (steps others : List Step) :
    shownJobs shown (steps ++ others) = shownJobs shown steps ++ shownJobs shown others := by
  rw [shownJobs, shownJobs, shownJobs, List.filter_append, List.map_append]

theorem shownJobs_subset (shown : StepFilter → Bool) (steps : List Step) :
    shownJobs shown steps ⊆ steps.map job :=
  List.map_subset _ (List.filter_subset_self _)

end Step

namespace ScanReport.Agrees

variable {report : ScanReport} {steps : List Step}

/-- What is not listed makes no difference. -/
theorem congr (h : report.Agrees steps) {others : List Step}
    (hsame : others.map Step.listing = steps.map Step.listing) : report.Agrees others := by
  obtain ⟨hmoc, hproject, hrcc, huic, hprotoc⟩ := h
  rw [Step.shownJobs_eq, ← hsame, ← Step.shownJobs_eq] at hmoc hproject
  rw [Step.map_job_eq, ← hsame, ← Step.map_job_eq] at hrcc huic hprotoc
  exact ⟨hmoc, hproject, hrcc, huic, hprotoc⟩

-- every record is shown in one of the two views
theorem mem_moc_iff (h : report.Agrees steps) {file : Path} :
    file ∈ report.moc ↔ ∃ step ∈ steps, step.job = (.metaObjectCompile, file) := by
  constructor
  · intro hfile
    rw [← h.moc, StepKind.mem_filesOf] at hfile
    exact List.mem_map.1 (Step.shownJobs_subset _ _ hfile)
  · rintro ⟨step, hstep, hjob⟩
    have hmem (shown : StepFilter → Bool) (hshown : shown step.filter = true) :
        (StepKind.metaObjectCompile, file) ∈ Step.shownJobs shown steps :=
      hjob ▸ List.mem_map_of_mem (List.mem_filter.2 ⟨hstep, hshown⟩)
    cases hfilter : step.filter with
    | all => exact h.moc ▸ StepKind.mem_filesOf.2 (hmem _ (by rw [hfilter]; rfl))
    | fastBuildOnly => exact h.moc ▸ StepKind.mem_filesOf.2 (hmem _ (by rw [hfilter]; rfl))
    | excludeFastBuild =>
      exact h.mocInProjectFiles ▸ StepKind.mem_filesOf.2 (hmem _ (by rw [hfilter]; rfl))

end ScanReport.Agrees

structure QtSources.ListedBy (sources : QtSources) (steps : List Step) : Prop where
  moc : ∀ shown : StepFilter → Bool, shown .all = true →
    shown .excludeFastBuild = !shown .fastBuildOnly →
      StepKind.metaObjectCompile.filesOf (Step.shownJobs shown steps) = sources.moc
  resources : StepKind.resourceCompile.filesOf (steps.map Step.job) = sources.resources
  forms : StepKind.uiCompile.filesOf (steps.map Step.job) = sources.forms
  others : StepKind.schemaCompile.filesOf (steps.map Step.job) = []

theorem QtTool.listedBy_steps (tool : QtTool) (sources : QtSources) (target : Target) :
    sources.ListedBy (tool.steps sources target) := by
  have hjobs (kind : StepKind) (hkind : kind ≠ .metaObjectCompile) :
      kind.filesOf ((tool.steps sources target).map Step.job) =
        (if .resourceCompile = kind then sources.resources else []) ++
          (if .uiCompile = kind then sources.forms else []) := by
    have hmoc : kind.filesOf ((tool.mocSteps sources target).map Step.job) = [] := by
      apply StepKind.filesOf_eq_nil
      intro job hjob
      obtain ⟨step, hstep, rfl⟩ := List.mem_map.1 hjob
      exact fun heq => hkind (heq ▸ kind_of_mem_mocSteps hstep)
    rw [steps, List.map_append, List.map_append, StepKind.filesOf_append, StepKind.filesOf_append,
      hmoc, List.nil_append, List.map_map, List.map_map]
    exact congrArg₂ _ (StepKind.filesOf_map _ _) (StepKind.filesOf_map _ _)
  refine ⟨fun shown hall hone => ?_, ?_, ?_, ?_⟩
  · rw [tool.shownJobs_steps sources target hall hone, QtSources.jobs]
    simp [StepKind.filesOf_append]
  · simp [hjobs]
  · simp [hjobs]
  · simp [hjobs]

theorem QtSources.ListedBy.agrees {sources : QtSources} {steps schemas : List Step}
    {files : List Path} (h : sources.ListedBy steps)
    (hschemas : schemas.map Step.job = files.map (.schemaCompile, ·)) (name : String)
    (count : Nat) :
    (⟨name, count, sources.moc, sources.resources, sources.forms, files⟩ : ScanReport).Agrees
      (steps ++ schemas) := by
  have hmoc (shown : StepFilter → Bool) (hall : shown .all = true)
      (hone : shown .excludeFastBuild = !shown .fastBuildOnly) :
      StepKind.metaObjectCompile.filesOf (Step.shownJobs shown (steps ++ schemas)) =
        sources.moc := by
    have hnone : StepKind.metaObjectCompile.filesOf (Step.shownJobs shown schemas) = [] := by
      apply StepKind.filesOf_eq_nil
      intro job hjob
      have hmem := Step.shownJobs_subset shown schemas hjob
      rw [hschemas] at hmem
      obtain ⟨file, -, rfl⟩ := List.mem_map.1 hmem
      exact StepKind.noConfusion
    rw [Step.shownJobs_append, StepKind.filesOf_append, hnone, List.append_nil,
      h.moc shown hall hone]
  refine ⟨hmoc _ rfl rfl, hmoc _ rfl rfl, ?_, ?_, ?_⟩
  · simp [StepKind.filesOf_append, hschemas, h.resources]
  · simp [StepKind.filesOf_append, hschemas, h.forms]
  · simp [StepKind.filesOf_append, hschemas, h.others]

/-! ## 2. One project -/

namespace Solution

variable {fs : FileSystem} {project : Project} {tool : Tool} {tools : List Tool}

/-- The steps of a tool stand before those of the tools that come after it. -/
theorem exists_of_mem_origins {steps : Target → List Step} {table : StepTable}
    (h : Registers steps project (tool.collect fs project).project table) {made : List Origin}
    (hmade : made ∈ originsOfTools fs project (tool :: tools)) :
    ∃ target, ∃ later ∈ originsOfTools (tool.collect fs project).files
        (tool.collect fs project).project tools,
      made.map (·.step) = steps target ++ later.map (·.step) := by
  have happended : appended tool project (tool.collect fs project).project =
      project.configurations.map fun conf => (steps conf.target).map (Origin.mk tool) := by
    apply List.Forall₂.zipWith_eq
    apply h.appends.imp
    rintro conf conf' ⟨-, hsteps⟩
    rw [hsteps, List.drop_left]
  rw [originsOfTools] at hmade
  simp only [happended, ← List.map_uncurry_zip_eq_zipWith] at hmade
  obtain ⟨⟨first, later⟩, hpair, rfl⟩ := List.mem_map.1 hmade
  obtain ⟨hfirst, hlater⟩ := List.of_mem_zip hpair
  obtain ⟨conf, -, rfl⟩ := List.mem_map.1 hfirst
  refine ⟨conf.target, later, hlater, ?_⟩
  rw [Function.uncurry_apply_pair, List.map_append, List.map_map]
  exact congrArg (· ++ _) (List.map_id _)

end Solution

namespace Setup

open Solution

variable {s : Setup} {fs fs' : FileSystem} {project : Project} {tables : List StepTable}

theorem schemaSources_ok
    (h : (collectTools fs project (s.schema.map Tool.schema).toList).1 = .ok tables) :
    ∃ files, s.schemaSources project = .ok files ∧
      ∀ made ∈ originsOfTools fs project (s.schema.map Tool.schema).toList,
        (made.map (·.step)).map Step.job = files.map (.schemaCompile, ·) := by
  rw [schemaSources]
  cases hschema : s.schema with
  | none =>
    refine ⟨[], rfl, fun made hmade => ?_⟩
    obtain ⟨conf, -, rfl⟩ := List.mem_map.1 hmade
    rfl
  | some tool =>
    rw [hschema] at h
    obtain ⟨table, _, hresult, -⟩ := collectTools_cons_ok_iff.1 (Prod.ext h rfl)
    obtain ⟨steps, hregisters, hserves⟩ := Tool.registers hresult
    obtain ⟨files, hfiles, -, -⟩ := hserves ⟨.win32, .make, .debug⟩
    refine ⟨files, hfiles, fun made hmade => ?_⟩
    obtain ⟨target, later, hlater, hsteps⟩ := exists_of_mem_origins hregisters hmade
    obtain ⟨conf, -, rfl⟩ := List.mem_map.1 hlater
    -- whatever the target, the same files are selected
    obtain ⟨others, hothers, hjobs, -⟩ := hserves target
    obtain rfl := Except.ok.inj (hfiles.symm.trans hothers)
    rw [hsteps, List.map_nil, List.append_nil, hjobs]

/-- Tools that run when the files of the project read as they do at the start make their steps on
the files that are listed at the start. -/
theorem agrees_of_collectTools
    (hread : ∀ file ∈ project.sourceFiles, fs'.read file = fs.read file)
    (h : (collectTools fs' project s.tools).1 = .ok tables) :
    ∃ sources files, s.qtSources fs project = .ok sources ∧
      s.schemaSources project = .ok files ∧
      ∀ made ∈ originsOfTools fs' project s.tools, ∃ steps schemas,
        made.map (·.step) = steps ++ schemas ∧ sources.ListedBy steps ∧
          schemas.map Step.job = files.map (.schemaCompile, ·) := by
  rw [qtSources]
  rw [tools] at h ⊢
  cases hqt : s.qt with
  | none =>
    rw [hqt] at h
    obtain ⟨files, hfiles, hjobs⟩ := schemaSources_ok h
    refine ⟨⟨[], [], []⟩, files, rfl, hfiles, fun made hmade => ?_⟩
    exact ⟨[], made.map (·.step), rfl, ⟨fun _ _ _ => rfl, rfl, rfl, rfl⟩, hjobs made hmade⟩
  | some tool =>
    rw [hqt] at h
    obtain ⟨table, rest, hresult, htools, -⟩ := collectTools_cons_ok_iff.1 (Prod.ext h rfl)
    obtain ⟨sources, hsources, hregisters⟩ := QtTool.registers hresult
    obtain ⟨files, hfiles, hjobs⟩ := schemaSources_ok (congrArg Prod.fst htools)
    -- the files are classified as they are at the start
    rw [QtTool.classify_congr fun file hfile => hread file (Project.pick_sublist.mem hfile)]
      at hsources
    -- and schemas selected as without the files that were added
    have hschemas : s.schemaSources (tool.collect fs' project).project =
        s.schemaSources project := by
      rw [schemaSources, schemaSources]
      cases s.schema with
      | none => rfl
      | some schemas => exact QtTool.select_collect hresult schemas
    refine ⟨sources, files, hsources, hschemas ▸ hfiles, fun made hmade => ?_⟩
    obtain ⟨target, later, hlater, hsteps⟩ := exists_of_mem_origins hregisters hmade
    exact ⟨_, _, hsteps, tool.listedBy_steps sources target, hjobs later hlater⟩

theorem scan_of_collectTools (tree : fs.IsTree) (fresh : s.project.sourceFiles = [])
    (hdiscover : s.project.discover fs = .ok project) (hgrows : fs.Grows fs')
    (h : (collectTools fs' project s.tools).1 = .ok tables) :
    ∃ report, s.scan fs = .ok report ∧ report.project = s.project.name ∧
      ∀ made ∈ originsOfTools fs' project s.tools, report.Agrees (made.map (·.step)) := by
  have hread : ∀ file ∈ project.sourceFiles, fs'.read file = fs.read file :=
    fun _ => Project.read_of_discover tree fresh hdiscover hgrows
  obtain ⟨sources, files, hsources, hfiles, hmade⟩ := agrees_of_collectTools hread h
  have hname : project.name = s.project.name := by rw [Project.eq_of_discover hdiscover]
  rw [scan, hdiscover]
  simp only [hsources, hfiles]
  refine ⟨_, rfl, hname, fun made hmem => ?_⟩
  obtain ⟨steps, schemas, hsteps, hlisted, hjobs⟩ := hmade made hmem
  rw [hsteps]
  exact hlisted.agrees hjobs _ _

end Setup

/-! ## 3. All projects -/

namespace Solution

variable {fs fs' : FileSystem}

theorem forall₂_discover {members discovered : List Member}
    (fresh : ∀ m ∈ members, m.project.discovered = false)
    (h : discoverMembers fs members = (.ok (), discovered)) :
    List.Forall₂ (fun m m' => m'.tools = m.tools ∧ m.project.discover fs = .ok m'.project)
      members discovered := by
  induction members generalizing discovered with
  | nil =>
    obtain rfl := (Prod.mk.inj h).2
    exact .nil
  | cons m members ih =>
    obtain ⟨hfirst, hrest⟩ := List.forall_mem_cons.1 fresh
    rw [discoverMembers, if_neg (by rw [hfirst]; exact Bool.false_ne_true)] at h
    split at h
    · cases h
    · next project hproject =>
      obtain ⟨hresult, rfl⟩ := Prod.mk.inj h
      exact .cons ⟨rfl, hproject⟩ (ih hrest (Prod.ext hresult rfl))

/-- What tools make of the members agrees with scans at the start. The induction is on the members;
the tools of each find a file system that has grown since. -/
theorem forall₂_scan (tree : fs.IsTree) {setups : List Setup} {members : List Member}
    (hmembers : List.Forall₂ (fun s m => m.tools = s.tools ∧ s.project.sourceFiles = [] ∧
      s.project.discover fs = .ok m.project) setups members)
    (hgrows : fs.Grows fs') {tables : List (List StepTable)}
    (h : (collectMembers fs' members).1 = .ok tables) :
    List.Forall₂ (fun s made => ∃ report, (s.scan fs = .ok report ∧
        report.project = s.project.name) ∧ ∀ origins ∈ made, report.Agrees (origins.map (·.step)))
      setups (origins fs' members) := by
  induction hmembers generalizing fs' tables with
  | nil => exact .nil
  | @cons s m setups members hfirst _ ih =>
    obtain ⟨htools, fresh, hdiscover⟩ := hfirst
    obtain ⟨first, project, between, others, _, hcollect, hmembers, -, -⟩ :=
      collectMembers_cons_ok_iff.1 (Prod.ext h rfl)
    have hgrows' : fs.Grows (collectTools fs' m.project m.tools).2.2 :=
      hgrows.trans (extends_collectTools fs' m.project m.tools).grows
    rw [hcollect] at hgrows'
    rw [htools] at hcollect
    obtain ⟨report, hscan, hname, hagrees⟩ :=
      Setup.scan_of_collectTools tree fresh hdiscover hgrows (congrArg Prod.fst hcollect)
    rw [origins, htools, hcollect]
    exact .cons ⟨report, ⟨hscan, hname⟩, hagrees⟩ (ih hgrows' (congrArg Prod.fst hmembers))

theorem listing_attach (step : Step) (bundle : Bundle) :
    (step.attach bundle).listing = step.listing := by
  rw [Step.attach]
  split <;> rfl

/-- The steps of a configuration are listed like those that tools have made. -/
theorem Gathering.Generates.exists_listing {projects : List Project} {g : Gathering} {m : Member}
    (h : g.Generates projects m) {conf : Configuration} (hconf : conf ∈ m.project.configurations) :
    ∃ made ∈ g.origins, conf.steps.map Step.listing = (made.map (·.step)).map Step.listing := by
  obtain ⟨-, confs, hbecomes, hconfs⟩ := h
  have hmade (other : Configuration) (hother : other ∈ confs) :
      g.made other.target ∈ g.origins := by
    obtain ⟨given, hgiven, hbecome⟩ := hbecomes.flip.exists_of_mem hother
    rw [Becomes.target hbecome]
    exact List.mem_map_of_mem hgiven
  rw [hconfs] at hconf
  rcases Project.mem_of_mem_alterFirsts hconf with hmem | ⟨other, hother, rfl⟩
  · exact ⟨_, hmade conf hmem, by rw [(g.covers_of_becomes hbecomes hmem).1]⟩
  · refine ⟨_, hmade other hother, ?_⟩
    rw [finish, List.map_map, List.map_map]
    exact List.map_congr_left fun origin _ => listing_attach _ _

theorem names_generate {s : Solution} {stats : GenerationStats}
    (distinct : (s.projects.map (·.name)).Nodup) (h : (s.generate fs).result = .ok stats) :
    (s.generate fs).solution.members.map (·.project.name) = s.members.map (·.project.name) := by
  obtain ⟨o, resolved, hcollect, hresolve, hfinalize⟩ := generate_phases h
  obtain ⟨hoffer, htabulates⟩ := collect_tabulates hcollect
  have hnames := Resolution.names_congr hoffer
  rw [← hnames] at distinct
  have hresolved := Resolution.resolveAll_of_buildOrder distinct hresolve
  rw [List.forall₂_map_left_iff] at hresolved
  have hkept : o.collected.map (·.project.name) = resolved.map (·.name) := by
    apply List.Forall₂.map_eq
    apply hresolved.imp
    rintro m _ ⟨_, rfl, -⟩
    rfl
  have hfinal : (s.generate fs).solution.members.map (·.project.name) =
      ((withProjects o.collected resolved).zip o.tables).map (·.1.project.name) := by
    apply List.Forall₂.map_eq
    apply (finalizeMembers_ok hfinalize).flip.imp
    rintro m entry rfl
    rfl
  rw [hfinal, map_project_entries (·.name) hresolved.length_eq.symm htabulates.length_eq.symm,
    ← hkept]
  rw [projects, List.map_map, List.map_map] at hnames
  exact hnames

end Solution

/-! ## 4. Workspaces -/

namespace Setup

variable {w : Workspace} {setups : List Setup}

/-- The setups of an accepted workspace, each with its report and with what generation makes of
it. -/
theorem forall₂_agrees (manifest : w.manifest.validate = .ok ())
    (hprojects : setups.map (·.project) = w.manifest.projects.map (projectOf w)) {fs : FileSystem}
    (tree : fs.IsTree) {name : String} {stats : GenerationStats}
    (h : ((solution name setups).generate fs).result = .ok stats) :
    List.Forall₂ (fun s m => ∃ report,
        (s.scan fs = .ok report ∧ report.project = s.project.name) ∧
          report.project = m.project.name ∧
            ∀ conf ∈ m.project.configurations, report.Agrees conf.steps)
      setups ((solution name setups).generate fs).solution.members := by
  have distinct : ((solution name setups).projects.map (·.name)).Nodup := by
    rw [projects_solution, hprojects]
    exact nodup_names_projectOf manifest
  obtain ⟨o, gatherings, hcollect, horigins, -, hgenerates⟩ :=
    Solution.generate_members distinct (steps_solution hprojects name) h
  obtain ⟨hdiscover, htools⟩ := Solution.collect_phases hcollect
  -- no source file is known before discovery
  have hfresh : ∀ s ∈ setups, s.project.sourceFiles = [] ∧ s.project.discovered = false := by
    intro s hs
    obtain ⟨p, hp⟩ := project_of_mem hprojects hs
    rw [hp]
    exact ⟨rfl, rfl⟩
  have hundiscovered : ∀ m ∈ (solution name setups).members, m.project.discovered = false := by
    intro m hm
    obtain ⟨s, hs, rfl⟩ := List.mem_map.1 hm
    exact (hfresh s hs).2
  have hfound := Solution.forall₂_discover hundiscovered hdiscover
  rw [solution, List.forall₂_map_left_iff] at hfound
  have hstart := (List.forall₂_and_left ..).2 ⟨fun s hs => (hfresh s hs).1, hfound⟩
  have hscan := Solution.forall₂_scan tree
    (hstart.imp fun s m hone => ⟨hone.2.1, hone.1, hone.2.2⟩) (.refl fs) (congrArg Prod.fst htools)
  rw [← horigins, List.forall₂_map_right_iff] at hscan
  have hnames := (Solution.names_generate distinct h).symm
  rw [← List.forall₂_eq_eq_eq, List.forall₂_map_left_iff, List.forall₂_map_right_iff, solution,
    List.forall₂_map_left_iff] at hnames
  have hmembers : List.Forall₂ (fun s m => ∃ report,
      (s.scan fs = .ok report ∧ report.project = s.project.name) ∧
        ∀ conf ∈ m.project.configurations, report.Agrees conf.steps)
      setups ((solution name setups).generate fs).solution.members := by
    refine hscan.comp hgenerates ?_
    rintro s g m ⟨report, hreport, hagrees⟩ hgenerate
    refine ⟨report, hreport, fun conf hconf => ?_⟩
    obtain ⟨made, hmade, hlisting⟩ := hgenerate.exists_listing hconf
    exact (hagrees made hmade).congr hlisting
  refine hmembers.mp ?_ hnames
  rintro s m ⟨report, ⟨hreport, hproject⟩, hagrees⟩ hname
  exact ⟨report, ⟨hreport, hproject⟩, hproject.trans hname, hagrees⟩

theorem scanAll_ok {fs : FileSystem} {reports : List ScanReport}
    (h : List.Forall₂ (fun s report => s.scan fs = .ok report) setups reports) :
    scanAll fs setups = .ok reports := by
  induction h with
  | nil => rfl
  | cons hfirst _ ih => rw [scanAll, hfirst, ih]

end Setup

/-! ## 5. Commands -/

namespace CommandLine

variable {fs : FileSystem} {w : Workspace}

theorem setups_of_start {i : Invocation} {g : Generation} (h : start fs w i = .generate g) :
    ∃ setups, Setup.ofWorkspace w = .ok setups ∧
      g.solution = Setup.solution w.manifest.solution.name setups := by
  rw [start] at h
  split at h
  · cases h
  · next setups hsetups =>
    refine ⟨setups, hsetups, ?_⟩
    simp only at h
    split at h
    · cases h
    · split at h
      · rw [← Task.generate.inj h]
      · cases h

theorem start_scan {setups : List Setup} (hsetups : Setup.ofWorkspace w = .ok setups)
    {i : Invocation} (hscan : i.command = .scan)
    (hknown : ∀ name, i.project = some name → ∃ s ∈ setups, s.project.name = name) :
    start fs w i = .respond (scan fs w i (setups.filter fun s => i.concerns s.project.name)) := by
  rw [start, hsetups]
  simp only
  split
  · next name hname hnone =>
    obtain ⟨s, hs, hproject⟩ := hknown name hname
    have hmem : s ∈ setups.filter fun s => i.concerns s.project.name := by
      refine List.mem_filter.2 ⟨hs, ?_⟩
      rw [Invocation.concerns, hname, hproject]
      exact beq_self_eq_true name
    rw [hnone] at hmem
    cases hmem
  · rw [hscan]

/-- **A scan tells what generation does.** Where a generation for an accepted workspace succeeds, so
does a scan that starts from the same tree of files. It prints a report for each project that it is
asked about, and the report lists the files that the steps of every configuration are made on, in
order: those of the meta-object steps, which builds without project files and project files show
alike, and those of the steps on resource collections, on forms and on schemas. The scan leaves the
files as they are. -/
theorem scan_agrees_with_generation (manifest : w.manifest.validate = .ok ())
    (workspace : w.validate = .ok ()) (tree : fs.IsTree) {i : Invocation} {g : Generation}
    (generation : start fs w i = .generate g) {stats : GenerationStats}
    (result : (g.solution.generate fs).result = .ok stats) {j : Invocation}
    (scan : j.command = .scan)
    (known : ∀ name, j.project = some name → ∃ p ∈ w.manifest.projects, p.name = name) :
    ∃ reports,
      List.Forall₂ (fun report m => report.project = m.project.name ∧
          ∀ conf ∈ m.project.configurations, ScanReport.Agrees report conf.steps)
        reports ((g.solution.generate fs).solution.members.filter fun m =>
          j.concerns m.project.name) ∧
      start fs w j = .respond (.printed fs (if j.json then
          (Json.array (reports.map scanJson)).text ++ "\n"
        else unlines (reports.flatMap (scanLines w.root)))) := by
  obtain ⟨setups, hsetups, hsolution⟩ := setups_of_start generation
  obtain ⟨setups', hsetups', hprojects⟩ := Setup.ofWorkspace_ok workspace
  obtain rfl := Except.ok.inj (hsetups.symm.trans hsetups')
  rw [hsolution] at result ⊢
  obtain ⟨reports, hscans, hagree⟩ :=
    (Setup.forall₂_agrees manifest hprojects tree result).exists_between
  -- the reports that are asked for are among those of all projects
  have hconcerned := List.rel_filter (p := fun s : Setup => j.concerns s.project.name)
    (q := fun report : ScanReport => j.concerns report.project)
    (fun _ _ hboth => iff_of_eq (congrArg (j.concerns · = true) hboth.2.symm)) hscans
  have hscanned := Setup.scanAll_ok (hconcerned.imp fun _ _ hboth => hboth.1)
  refine ⟨reports.filter fun report => j.concerns report.project,
    List.rel_filter (fun _ _ hboth => iff_of_eq (congrArg (j.concerns · = true) hboth.1)) hagree,
    ?_⟩
  rw [start_scan hsetups scan, CommandLine.scan, hscanned]
  intro name hname
  obtain ⟨p, hp, rfl⟩ := known name hname
  have hmem : Setup.projectOf w p ∈ setups.map (·.project) :=
    hprojects ▸ List.mem_map_of_mem hp
  obtain ⟨s, hs, hproject⟩ := List.mem_map.1 hmem
  exact ⟨s, hs, by rw [hproject]; rfl⟩

def everywhere (command : Command) : Invocation where
  command := command
  manifest := none
  project := none
  json := true
  relative := false
  verbose := false
  quiet := false
  logLevel := none

theorem scan_agrees_with_generation_sample :
    let w := Setup.workspaceFor [.win64, .linux]
    let fs := Setup.workspaceFiles
    let g : Generation :=
      ⟨Setup.solution "sample" (Setup.setupsFor [.win64, .linux]), everywhere .generate⟩
    w.manifest.validate = .ok () ∧ w.validate = .ok () ∧ fs.IsTree ∧
      start fs w (everywhere .generate) = .generate g ∧
      (g.solution.generate fs).result = .ok Setup.twoStepsStats ∧
      ∃ reports,
        List.Forall₂ (fun report m => report.project = m.project.name ∧
            ∀ conf ∈ m.project.configurations, ScanReport.Agrees report conf.steps)
          reports ((g.solution.generate fs).solution.members.filter fun _ => true) ∧
        start fs w (everywhere .scan) =
          .respond (.printed fs ((Json.array (reports.map scanJson)).text ++ "\n")) := by
  intro w fs g
  have manifest : w.manifest.validate = .ok () := by decide +kernel
  have workspace : w.validate = .ok () := by decide +kernel
  have tree : fs.IsTree := ⟨by decide, by decide, by decide⟩
  have generation : start fs w (everywhere .generate) = .generate g := rfl
  have result : (g.solution.generate fs).result = .ok Setup.twoStepsStats := by decide +kernel
  have hscan := scan_agrees_with_generation manifest workspace tree generation result
    (j := everywhere .scan) rfl (by decide)
  exact ⟨manifest, workspace, tree, generation, result, hscan⟩

end CommandLine

end BuildSteps
