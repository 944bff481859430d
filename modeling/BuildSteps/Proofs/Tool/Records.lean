import BuildSteps.Proofs.Tool.Classification
import BuildSteps.Proofs.Tool.Registration

/-!
# The records of the steps

Builds without project files show some of the records that a tool appends, and project files show
some. Either way every file that the tool is run on has one step, in the order of the files.
-/

namespace BuildSteps

/-! ## 1. Views -/

namespace StepFilter

def inFastBuild : StepFilter → Bool
  | all | fastBuildOnly => true
  | excludeFastBuild => false

def inProjectFiles : StepFilter → Bool
  | all | excludeFastBuild => true
  | fastBuildOnly => false

end StepFilter

def Step.job (step : Step) : StepKind × Path := (step.kind, step.sourceFile)

def Step.shownJobs (shown : StepFilter → Bool) (steps : List Step) : List (StepKind × Path) :=
  (steps.filter (shown ·.filter)).map Step.job

/-- The jobs that sources call for: meta-object steps, then resources, then forms. -/
def QtSources.jobs (sources : QtSources) : List (StepKind × Path) :=
  sources.moc.map (.metaObjectCompile, ·) ++ sources.resources.map (.resourceCompile, ·) ++
    sources.forms.map (.uiCompile, ·)

/-- The records of the meta-object step on a file. A header has one for all builds. A translation
unit has two, one for builds without project files and one for project files, which share their
output and their placeholder. -/
inductive MetaObjectRecords (file : Path) : List Step → Prop
  | header {step : Step} :
    file.isCppSource = false → step.job = (.metaObjectCompile, file) → step.filter = .all →
      step.intermediateFile = none → MetaObjectRecords file [step]
  | source {bootstrap variant : Step} {placeholder : Path} :
    file.isCppSource = true →
      bootstrap.job = (.metaObjectCompile, file) → variant.job = (.metaObjectCompile, file) →
      bootstrap.filter = .fastBuildOnly → variant.filter = .excludeFastBuild →
      variant.output = bootstrap.output →
      bootstrap.intermediateFile = some placeholder → variant.intermediateFile = some placeholder →
      MetaObjectRecords file [bootstrap, variant]

theorem MetaObjectRecords.job_eq {file : Path} {records : List Step}
    (h : MetaObjectRecords file records) {step : Step} (hstep : step ∈ records) :
    step.job = (.metaObjectCompile, file) := by
  cases h with
  | header _ hjob _ _ =>
    obtain rfl := List.mem_singleton.1 hstep
    exact hjob
  | source _ hbootstrap hvariant _ _ _ _ _ =>
    rcases List.mem_pair.1 hstep with rfl | rfl
    · exact hbootstrap
    · exact hvariant

/-- A view that shows one of the two records of a translation unit shows the job of each file
once. -/
theorem MetaObjectRecords.shownJobs {file : Path} {records : List Step}
    (h : MetaObjectRecords file records) {shown : StepFilter → Bool} (hall : shown .all = true)
    (hone : shown .excludeFastBuild = !shown .fastBuildOnly) :
    Step.shownJobs shown records = [(.metaObjectCompile, file)] := by
  cases h with
  | header _ hjob hfilter _ => simp [Step.shownJobs, hfilter, hall, hjob]
  | source _ hbootstrap hvariant hfast hproject _ _ _ =>
    cases hshown : shown .fastBuildOnly <;>
      simp [Step.shownJobs, hfast, hproject, hone, hshown, hbootstrap, hvariant]

theorem MetaObjectRecords.shownJobs_flatten {files : List Path} {records : List (List Step)}
    (h : List.Forall₂ MetaObjectRecords files records) {shown : StepFilter → Bool}
    (hall : shown .all = true) (hone : shown .excludeFastBuild = !shown .fastBuildOnly) :
    Step.shownJobs shown records.flatten = files.map (.metaObjectCompile, ·) := by
  induction h with
  | nil => rfl
  | cons hfirst _ ih =>
    rw [Step.shownJobs] at ih
    have hjob := hfirst.shownJobs hall hone
    rw [Step.shownJobs] at hjob
    rw [Step.shownJobs, List.flatten_cons, List.filter_append, List.map_append, hjob, ih,
      List.map_cons, List.singleton_append]

/-! ## 2. The Qt tool -/

namespace QtTool

def records (tool : QtTool) (target : Target) (file : Path) : List Step :=
  let step :=
    Step.metaObject target tool.executables.moc tool.sharedFolder tool.sharedFolder file
  step :: step.projectVariant?.toList

theorem mocSteps_eq (tool : QtTool) (sources : QtSources) (target : Target) :
    tool.mocSteps sources target = (sources.moc.map (tool.records target)).flatten := rfl

theorem metaObjectRecords_records (tool : QtTool) (target : Target) (file : Path) :
    MetaObjectRecords file (tool.records target file) := by
  unfold records Step.metaObject
  cases hcpp : file.isCppSource with
  | false => exact .header hcpp rfl rfl rfl
  | true => exact .source hcpp rfl rfl rfl rfl rfl rfl rfl

theorem shownJobs_steps (tool : QtTool) (sources : QtSources) (target : Target)
    {shown : StepFilter → Bool} (hall : shown .all = true)
    (hone : shown .excludeFastBuild = !shown .fastBuildOnly) :
    Step.shownJobs shown (tool.steps sources target) = sources.jobs := by
  have hmoc := MetaObjectRecords.shownJobs_flatten
    (List.forall₂_map_right_iff.2 (List.forall₂_same.2 fun file (_ : file ∈ sources.moc) =>
      tool.metaObjectRecords_records target file)) hall hone
  -- steps on resources and forms are shown everywhere
  have hother (files : List Path) (make : Path → Step) (kind : StepKind)
      (hmake : ∀ file, (make file).job = (kind, file) ∧ (make file).filter = .all) :
      Step.shownJobs shown (files.map make) = files.map (kind, ·) := by
    rw [Step.shownJobs, List.filter_eq_self.2, List.map_map]
    · exact List.map_congr_left fun file _ => (hmake file).1
    · intro step hstep
      obtain ⟨file, -, rfl⟩ := List.mem_map.1 hstep
      rw [(hmake file).2, hall]
  have hresources := hother sources.resources
    (Step.resource target tool.executables.rcc tool.sharedFolder) .resourceCompile
    fun _ => ⟨rfl, rfl⟩
  have hforms := hother sources.forms (Step.form target tool.executables.uic tool.sharedFolder)
    .uiCompile fun _ => ⟨rfl, rfl⟩
  rw [Step.shownJobs] at hmoc hresources hforms ⊢
  rw [steps, mocSteps_eq, List.filter_append, List.filter_append, List.map_append, List.map_append,
    hmoc, hresources, hforms, QtSources.jobs]

end QtTool

/-- Steps that serve sources: either view shows one step for each job, in their order, and the
records of a meta-object step stand side by side. -/
structure QtSources.ServedBy (sources : QtSources) (made : List Step) : Prop where
  fastBuild : Step.shownJobs StepFilter.inFastBuild made = sources.jobs
  projectFiles : Step.shownJobs StepFilter.inProjectFiles made = sources.jobs
  records : ∃ records others, made = List.flatten records ++ others ∧
    List.Forall₂ MetaObjectRecords sources.moc records ∧
    ∀ step ∈ others, step.kind ≠ .metaObjectCompile

theorem QtTool.servedBy_steps (tool : QtTool) (sources : QtSources) (target : Target) :
    sources.ServedBy (tool.steps sources target) where
  fastBuild := tool.shownJobs_steps sources target rfl rfl
  projectFiles := tool.shownJobs_steps sources target rfl rfl
  records := by
    refine ⟨_, _, List.append_assoc _ _ _, ?_, fun step hstep => ?_⟩
    · exact List.forall₂_map_right_iff.2 (List.forall₂_same.2 fun file _ =>
        tool.metaObjectRecords_records target file)
    · rcases List.mem_append.1 hstep with h | h
      · obtain ⟨_, -, rfl⟩ := List.mem_map.1 h
        exact StepKind.noConfusion
      · obtain ⟨_, -, rfl⟩ := List.mem_map.1 h
        exact StepKind.noConfusion

/-! ## 3. Collecting -/

theorem QtTool.sublist_of_classify {tool : QtTool} {fs : FileSystem} {project : Project}
    {sources : QtSources} (h : tool.classify fs project = .ok sources) :
    sources.moc.Sublist project.sourceFiles ∧ sources.resources.Sublist project.sourceFiles ∧
      sources.forms.Sublist project.sourceFiles := by
  obtain ⟨hmoc, hresources, hforms⟩ := eq_of_classify h
  rw [hmoc, hresources, hforms]
  exact ⟨List.filter_sublist.trans Project.pick_sublist, Project.pick_sublist,
    Project.pick_sublist⟩

theorem SchemaTool.sublist_of_select {tool : SchemaTool} {project : Project} {files : List Path}
    (h : tool.select project = .ok files) : files.Sublist project.sourceFiles := by
  rw [eq_of_select h]
  exact Project.pick_sublist

namespace Tool

/-- The steps that a tool makes serve the files that it picks, which stand in the order of the
source files. -/
def Serves (fs : FileSystem) (project : Project) (made : List Step) : Tool → Prop
  | qt tool => ∃ sources, tool.classify fs project = .ok sources ∧ sources.ServedBy made ∧
    sources.moc.Sublist project.sourceFiles ∧ sources.resources.Sublist project.sourceFiles ∧
      sources.forms.Sublist project.sourceFiles
  | schema tool => ∃ files, tool.select project = .ok files ∧
    made.map Step.job = files.map (.schemaCompile, ·) ∧ files.Sublist project.sourceFiles

/-- What a tool appends to the configurations. -/
theorem registers {tool : Tool} {fs : FileSystem} {project : Project} {table : StepTable}
    (h : (tool.collect fs project).result = .ok table) :
    ∃ steps, Registers steps project (tool.collect fs project).project table ∧
      ∀ target, tool.Serves fs project (steps target) := by
  cases tool with
  | qt tool =>
    obtain ⟨sources, hsources, hregisters⟩ := QtTool.registers h
    exact ⟨_, hregisters, fun target =>
      ⟨sources, hsources, tool.servedBy_steps sources target, tool.sublist_of_classify hsources⟩⟩
  | schema tool =>
    obtain ⟨files, hfiles, hregisters⟩ := SchemaTool.registers h
    refine ⟨_, hregisters, fun target => ⟨files, hfiles, ?_, tool.sublist_of_select hfiles⟩⟩
    rw [SchemaTool.steps_zip, List.map_map]
    rfl

/-- **Collecting appends one stretch of steps.** Where every configuration has its own target, a
collect that succeeds leaves the steps that are there in front, appends those that serve the files
of the tool, lists their positions in its table and makes source files of all that they call
for. -/
theorem collect_appends {tool : Tool} {fs : FileSystem} {project : Project} {table : StepTable}
    (distinct : (project.configurations.map (·.target)).Nodup)
    (h : (tool.collect fs project).result = .ok table) :
    let project' := (tool.collect fs project).project
    List.Forall₂ (fun conf conf' => ∃ made,
        conf'.target = conf.target ∧ conf'.steps = conf.steps ++ made ∧
        table.get? conf.target = (if made = [] then none
          else some (List.range' conf.steps.length made.length)) ∧
        (∀ step ∈ made, ∀ file ∈ step.output :: step.intermediateFile.toList,
          file.isIn project'.sourceFiles = true) ∧
        tool.Serves fs project made)
      project.configurations project'.configurations := by
  intro project'
  obtain ⟨steps, hregisters, hserves⟩ := registers h
  have hall := (List.forall₂_and_left ..).2 ⟨fun _ hconf => hconf, hregisters.appends⟩
  refine hall.imp fun conf conf' hboth => ?_
  obtain ⟨hconf, htarget, hsteps⟩ := hboth
  exact ⟨steps conf.target, htarget, hsteps, hregisters.positions distinct conf hconf,
    hregisters.files conf hconf, hserves conf.target⟩

def mixedProject : Project :=
  { Project.create "app" ⟨"/app"⟩ with
    sourceFiles := [⟨"/app/widget.h"⟩, ⟨"/app/main.ui"⟩, ⟨"/app/view.cpp"⟩, ⟨"/app/icons.qrc"⟩]
    configurations := [
      { Configuration.empty ⟨.win64, .vs2022, .debug⟩ with
        steps := [Step.schema ⟨.win64, .vs2022, .debug⟩ ⟨"/bin/protoc"⟩ ⟨"/app/out"⟩
          ⟨"/app/message.proto"⟩] },
      Configuration.empty ⟨.win64, .vs2022, .release⟩] }

def mixedFiles : FileSystem where
  workingDirectory := []
  entries := [
    (["app"], .directory),
    (["app", "widget.h"], .file [0x51, 0x5F, 0x4F, 0x42, 0x4A, 0x45, 0x43, 0x54]),
    (["app", "view.cpp"], .file [0x51, 0x5F, 0x47, 0x41, 0x44, 0x47, 0x45, 0x54])]

theorem collect_appends_mixed :
    let tool := qt (.create ⟨"/qt"⟩ ⟨"/app/moc"⟩)
    let table : StepTable := ⟨[⟨⟨.win64, .vs2022, .debug⟩, [1, 2, 3, 4, 5]⟩,
      ⟨⟨.win64, .vs2022, .release⟩, [0, 1, 2, 3, 4]⟩]⟩
    (mixedProject.configurations.map (·.target)).Nodup ∧
    (tool.collect mixedFiles mixedProject).result = .ok table ∧
    List.Forall₂ (fun conf conf' => ∃ made,
        conf'.target = conf.target ∧ conf'.steps = conf.steps ++ made ∧
        table.get? conf.target = (if made = [] then none
          else some (List.range' conf.steps.length made.length)) ∧
        (∀ step ∈ made, ∀ file ∈ step.output :: step.intermediateFile.toList,
          file.isIn (tool.collect mixedFiles mixedProject).project.sourceFiles = true) ∧
        tool.Serves mixedFiles mixedProject made)
      mixedProject.configurations
      (tool.collect mixedFiles mixedProject).project.configurations := by
  intro tool table
  have distinct : (mixedProject.configurations.map (·.target)).Nodup := by decide
  have ok : (tool.collect mixedFiles mixedProject).result = .ok table := by decide +kernel
  exact ⟨distinct, ok, collect_appends distinct ok⟩

end Tool

end BuildSteps
