import BuildSteps.Proofs.Tool.Collection

/-!
# What tools register

The steps that a collect appends to a configuration depend on its target only. The table of the tool
gives their positions in order, and the files that they write become source files.
-/

namespace BuildSteps

def Step.files (step : Step) : List Path := step.output :: step.intermediateFile.toList

/-! ## 1. Tables and generated files -/

namespace Collection

theorem get?_addSteps (c : Collection) (conf : Configuration) (steps : List Step)
    (target : Target) :
    (c.addSteps conf steps).1.table.get? target =
      if conf.target = target ∧ steps ≠ [] then
        some ((c.table.get? target).getD [] ++ List.range' conf.steps.length steps.length)
      else c.table.get? target := by
  induction steps generalizing c conf with
  | nil => simp [addSteps]
  | cons step steps ih =>
    rw [addSteps, ih, add, StepTable.get?_push, Configuration.addStep]
    by_cases htarget : conf.target = target
    -- the first step is pushed by itself, the others behind it
    · rw [List.length_append, List.length_singleton, List.length_cons, List.range'_succ]
      by_cases hsteps : steps = []
      · simp [htarget, hsteps]
      · simp [htarget, hsteps]
    · simp [htarget]

theorem isFilled_addSteps {c : Collection} (h : c.table.IsFilled) (conf : Configuration)
    (steps : List Step) : (c.addSteps conf steps).1.table.IsFilled := by
  induction steps generalizing c conf with
  | nil => exact h
  | cons step steps ih => exact ih (h.push conf.target conf.steps.length) _

theorem generated_addSteps (c : Collection) (conf : Configuration) (steps : List Step) :
    (c.addSteps conf steps).1.generated = c.generated ++ steps.flatMap Step.files := by
  induction steps generalizing c conf with
  | nil => rw [addSteps, List.flatMap_nil, List.append_nil]
  | cons step steps ih =>
    rw [addSteps, ih, add, List.flatMap_cons, List.append_assoc]
    rfl

variable {steps : Configuration → List Step} {prepare : Configuration → Configuration}

theorem isFilled_addAll {c : Collection} (h : c.table.IsFilled) (confs : List Configuration) :
    (c.addAll steps prepare confs).1.table.IsFilled := by
  induction confs generalizing c with
  | nil => exact h
  | cons conf confs ih => exact ih (isFilled_addSteps h _ _)

theorem generated_addAll (c : Collection) (confs : List Configuration) :
    (c.addAll steps prepare confs).1.generated =
      c.generated ++ confs.flatMap fun conf => (steps conf).flatMap Step.files := by
  induction confs generalizing c with
  | nil => rw [addAll, List.flatMap_nil, List.append_nil]
  | cons conf confs ih =>
    rw [addAll]
    show (addAll steps prepare (c.addSteps (prepare conf) (steps conf)).1 confs).1.generated = _
    rw [ih, generated_addSteps, List.flatMap_cons, List.append_assoc]

theorem get?_addAll_of_notMem (htarget : ∀ conf, (prepare conf).target = conf.target)
    (c : Collection) {confs : List Configuration} {target : Target}
    (h : target ∉ confs.map (·.target)) :
    (c.addAll steps prepare confs).1.table.get? target = c.table.get? target := by
  induction confs generalizing c with
  | nil => rfl
  | cons conf confs ih =>
    rw [List.map_cons, List.mem_cons, not_or] at h
    rw [addAll]
    show (addAll steps prepare (c.addSteps (prepare conf) (steps conf)).1 confs).1.table.get?
      target = _
    rw [ih _ h.2, get?_addSteps, htarget, if_neg fun hconf => h.1 hconf.1.symm]

/-- Where every configuration has its own target, the steps of each are registered in one
stretch. -/
theorem get?_addAll (htarget : ∀ conf, (prepare conf).target = conf.target)
    (hsteps : ∀ conf, (prepare conf).steps = conf.steps) (c : Collection)
    {confs : List Configuration} (distinct : (confs.map (·.target)).Nodup)
    {conf : Configuration} (hconf : conf ∈ confs) :
    (c.addAll steps prepare confs).1.table.get? conf.target =
      if steps conf = [] then c.table.get? conf.target
      else some ((c.table.get? conf.target).getD [] ++
        List.range' conf.steps.length (steps conf).length) := by
  induction confs generalizing c with
  | nil => cases hconf
  | cons first confs ih =>
    obtain ⟨hfirst, hrest⟩ := List.nodup_cons.1 distinct
    rw [addAll]
    show (addAll steps prepare (c.addSteps (prepare first) (steps first)).1 confs).1.table.get?
      conf.target = _
    rcases List.mem_cons.1 hconf with rfl | hmem
    -- no later configuration has this target
    · rw [get?_addAll_of_notMem htarget _ hfirst, get?_addSteps, htarget, hsteps]
      by_cases hnone : steps conf = [] <;> simp [hnone]
    · have hne : first.target ≠ conf.target := fun heq =>
        hfirst (List.mem_map.2 ⟨conf, hmem, heq.symm⟩)
      have hskip : (c.addSteps (prepare first) (steps first)).1.table.get? conf.target =
          c.table.get? conf.target := by
        rw [get?_addSteps, htarget, if_neg fun h => hne h.1]
      rw [ih _ hrest hmem, hskip]

end Collection

theorem Project.sourceFiles_addSourceFiles (project : Project) (files : List Path) :
    (project.addSourceFiles files).sourceFiles = Path.insertAllLast project.sourceFiles files := by
  unfold addSourceFiles
  induction files generalizing project with
  | nil => rfl
  | cons file files ih =>
    rw [List.foldl_cons, ih, addSourceFile, Path.insertAllLast, Path.insertAllLast, List.foldl_cons]

/-! ## 2. Tools -/

/-- What registering `steps` does to a project: they stand behind the steps of each configuration,
the table gives their positions, and the files they call for are source files. -/
structure Registers (steps : Target → List Step) (project project' : Project)
    (table : StepTable) : Prop where
  appends : List.Forall₂ (fun conf conf' =>
    conf'.target = conf.target ∧ conf'.steps = conf.steps ++ steps conf.target)
    project.configurations project'.configurations
  positions : (project.configurations.map (·.target)).Nodup → ∀ conf ∈ project.configurations,
    table.get? conf.target = if steps conf.target = [] then none
      else some (List.range' conf.steps.length (steps conf.target).length)
  files : ∀ conf ∈ project.configurations, ∀ step ∈ steps conf.target, ∀ file ∈ step.files,
    file.isIn project'.sourceFiles = true

theorem Registers.of_addAll (steps : Target → List Step)
    (given prepare : Configuration → Configuration)
    (hgiven : ∀ conf, (given conf).target = conf.target ∧ (given conf).steps = conf.steps)
    (hprepare : ∀ conf, (prepare conf).target = conf.target ∧ (prepare conf).steps = conf.steps)
    (project : Project) :
    let collected := Collection.empty.addAll (fun conf => steps conf.target) prepare
      (project.configurations.map given)
    Registers steps project
      (({ project with configurations := collected.2 } : Project).addSourceFiles
        collected.1.generated)
      collected.1.table := by
  intro collected
  have htargets : (project.configurations.map given).map (·.target) =
      project.configurations.map (·.target) := by
    rw [List.map_map]
    exact List.map_congr_left fun conf _ => (hgiven conf).1
  have hconfigurations (files : List Path) :
      (({ project with configurations := collected.2 } : Project).addSourceFiles
        files).configurations = collected.2 := by
    obtain ⟨_, hfiles⟩ := Project.addSourceFiles_frame
      { project with configurations := collected.2 } files
    rw [hfiles]
  refine ⟨?_, fun distinct conf hconf => ?_, fun conf hconf step hstep file hfile => ?_⟩
  · rw [hconfigurations, Collection.addAll_snd fun conf => (hprepare conf).2, List.map_map,
      List.forall₂_map_right_iff, List.forall₂_same]
    intro conf _
    refine ⟨(hprepare _).1.trans (hgiven conf).1, ?_⟩
    rw [Function.comp_apply, (hgiven conf).1, (hgiven conf).2]
  · rw [← (hgiven conf).1, ← (hgiven conf).2]
    exact Collection.get?_addAll (fun conf => (hprepare conf).1) (fun conf => (hprepare conf).2) _
      (htargets ▸ distinct) (List.mem_map_of_mem hconf)
  · rw [Project.sourceFiles_addSourceFiles, Path.isIn_insertAllLast, Collection.generated_addAll]
    refine .inr (Path.isIn_iff.2 ⟨file, List.mem_append_right _ ?_, rfl⟩)
    refine List.mem_flatMap.2 ⟨given conf, List.mem_map_of_mem hconf, ?_⟩
    rw [(hgiven conf).1]
    exact List.mem_flatMap.2 ⟨step, hstep, hfile⟩

theorem QtTool.registers {tool : QtTool} {fs : FileSystem} {project : Project} {table : StepTable}
    (h : (tool.collect fs project).result = .ok table) :
    ∃ sources, tool.classify fs project = .ok sources ∧
      Registers (tool.steps sources) project (tool.collect fs project).project table := by
  unfold collect at h ⊢
  split at h
  · cases h
  · next sources hsources =>
    split at h
    · cases h
    · next uncompiled huncompiled =>
      obtain rfl := Except.ok.inj h
      have hregisters := Registers.of_addAll (tool.steps sources) id
        (tool.prepare sources uncompiled) (fun _ => ⟨rfl, rfl⟩) (fun conf => ?_) project
      · rw [List.map_id] at hregisters
        exact ⟨sources, hsources, hregisters⟩
      · obtain ⟨excludes, hconf⟩ := tool.prepare_frame sources uncompiled conf
        rw [hconf]
        exact ⟨rfl, rfl⟩

/-- Every schema has one step, whose header lies in the folder for the schema. -/
theorem SchemaTool.steps_zip (executable : Path) (files : List Path) (folder : Path → Path)
    (target : Target) :
    steps executable (files.zip (files.map folder)) target =
      files.map fun file => Step.schema target executable (folder file) file := by
  rw [steps, ← List.map_prod_left_eq_zip, List.map_map]
  rfl

theorem SchemaTool.registers {tool : SchemaTool} {fs : FileSystem} {project : Project}
    {table : StepTable} (h : (tool.collect fs project).result = .ok table) :
    ∃ files, tool.select project = .ok files ∧
      Registers
        (steps (tool.executable fs) (files.zip (files.map (tool.outputFolder fs.currentPath))))
        project (tool.collect fs project).project table := by
  unfold collect at h ⊢
  split at h
  · cases h
  · next files hfiles =>
    split at h
    · cases h
    · next uncompiled huncompiled =>
      refine ⟨files, hfiles, ?_⟩
      by_cases hempty : files.isEmpty = true
      · simp only [if_pos hempty] at h ⊢
        obtain rfl := Except.ok.inj h
        obtain rfl := List.isEmpty_iff.1 hempty
        refine ⟨?_, fun _ conf _ => rfl, fun conf _ step hstep => by cases hstep⟩
        rw [List.forall₂_map_right_iff, List.forall₂_same]
        exact fun conf _ => ⟨rfl, (List.append_nil _).symm⟩
      · simp only [if_neg hempty] at h ⊢
        split at h
        · cases h
        · next made hmade =>
          obtain rfl := Except.ok.inj h
          refine Registers.of_addAll _ (·.addPrivateIncludePath tool.destinationFolder)
            (fun conf => conf.excludeOutputs uncompiled _) (fun _ => ⟨rfl, rfl⟩) (fun conf => ?_)
            project
          obtain ⟨excludes, hconf⟩ := conf.excludeOutputs_frame uncompiled _
          rw [hconf]
          exact ⟨rfl, rfl⟩

theorem Tool.isFilled_of_collect {tool : Tool} {fs : FileSystem} {project : Project}
    {table : StepTable} (h : (tool.collect fs project).result = .ok table) : table.IsFilled := by
  cases tool with
  | qt tool =>
    rw [collect, QtTool.collect] at h
    split at h
    · cases h
    · split at h
      · cases h
      · obtain rfl := Except.ok.inj h
        exact Collection.isFilled_addAll StepTable.isFilled_empty _
  | schema tool =>
    rw [collect, SchemaTool.collect] at h
    split at h
    · cases h
    · next files _ =>
      split at h
      · cases h
      · by_cases hempty : files.isEmpty = true
        · simp only [if_pos hempty] at h
          obtain rfl := Except.ok.inj h
          exact StepTable.isFilled_empty
        · simp only [if_neg hempty] at h
          split at h
          · cases h
          · obtain rfl := Except.ok.inj h
            exact Collection.isFilled_addAll StepTable.isFilled_empty _

end BuildSteps
