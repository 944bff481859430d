import Mathlib.Data.List.Forall2
import BuildSteps.Proofs.StepTable
import BuildSteps.Tool.Basic

/-!
# What a tool collects

A collect that succeeds gives each configuration the folder of the tool and, after the steps that
are there, new ones that depend on its target only. Its table lists just the positions of these.
-/

namespace BuildSteps

/-! ## 1. Registering steps -/

namespace Collection

theorem addSteps_snd (c : Collection) (conf : Configuration) (steps : List Step) :
    (c.addSteps conf steps).2 = { conf with steps := conf.steps ++ steps } := by
  induction steps generalizing c conf with
  | nil => rw [addSteps, List.append_nil]
  | cons step steps ih =>
    rw [addSteps, ih, Configuration.addStep, List.append_assoc, List.singleton_append]

theorem lists_addSteps (c : Collection) (conf : Configuration) (steps : List Step) (target : Target)
    (i : Nat) :
    (c.addSteps conf steps).1.table.lists target i = true ↔
      c.table.lists target i = true ∨ conf.target = target ∧ conf.steps.length ≤ i ∧
        i < conf.steps.length + steps.length := by
  induction steps generalizing c conf with
  | nil =>
    rw [addSteps, List.length_nil]
    exact ⟨.inl, fun h => h.elim id fun h => by omega⟩
  | cons step steps ih =>
    rw [addSteps, ih, add, StepTable.lists_push, or_assoc, Configuration.addStep, List.length_cons,
      List.length_append, List.length_singleton]
    -- the first step stands at the end of what was there, the others behind it
    apply or_congr_right
    constructor
    · rintro (⟨htarget, hi⟩ | ⟨htarget, hle, hlt⟩)
      · exact ⟨htarget, by omega, by omega⟩
      · exact ⟨htarget, by omega, by omega⟩
    · rintro ⟨htarget, hle, hlt⟩
      by_cases hi : i = conf.steps.length
      · exact .inl ⟨htarget, hi⟩
      · exact .inr ⟨htarget, by omega, by omega⟩

variable {steps : Configuration → List Step} {prepare : Configuration → Configuration}

theorem addAll_snd (hsteps : ∀ conf, (prepare conf).steps = conf.steps) (c : Collection)
    (confs : List Configuration) :
    (c.addAll steps prepare confs).2 =
      confs.map fun conf => { prepare conf with steps := conf.steps ++ steps conf } := by
  induction confs generalizing c with
  | nil => rfl
  | cons conf confs ih =>
    rw [addAll]
    show _ :: _ = _ :: _
    rw [ih, addSteps_snd, hsteps]

theorem lists_addAll (htarget : ∀ conf, (prepare conf).target = conf.target)
    (hsteps : ∀ conf, (prepare conf).steps = conf.steps) (c : Collection)
    (confs : List Configuration) (target : Target) (i : Nat) :
    (c.addAll steps prepare confs).1.table.lists target i = true ↔
      c.table.lists target i = true ∨ ∃ conf ∈ confs, conf.target = target ∧
        conf.steps.length ≤ i ∧ i < conf.steps.length + (steps conf).length := by
  induction confs generalizing c with
  | nil => simp [addAll]
  | cons conf confs ih =>
    rw [addAll]
    show (addAll steps prepare (c.addSteps (prepare conf) (steps conf)).1 confs).1.table.lists
      target i = true ↔ _
    rw [ih, lists_addSteps, htarget, hsteps, or_assoc, List.exists_mem_cons_iff]

end Collection

/-! ## 2. Configurations -/

/-- `conf'` is `conf` with the folders of tools and steps of theirs, and with build excludes. -/
def Configuration.Gains (folders : List Path) (steps : List Step)
    (conf conf' : Configuration) : Prop :=
  ∃ excludes, conf' = { conf with
    privateIncludePaths := Path.insertAllLast conf.privateIncludePaths folders
    buildExcludes := excludes
    steps := conf.steps ++ steps }

theorem Configuration.Gains.trans {folders more : List Path} {steps steps' : List Step}
    {conf conf' conf'' : Configuration} (h : conf.Gains folders steps conf')
    (h' : conf'.Gains more steps' conf'') : conf.Gains (folders ++ more) (steps ++ steps') conf'' := by
  obtain ⟨_, rfl⟩ := h
  obtain ⟨excludes, rfl⟩ := h'
  refine ⟨excludes, ?_⟩
  rw [Path.insertAllLast, Path.insertAllLast, Path.insertAllLast, List.foldl_append,
    List.append_assoc]

-- build excludes are all that changes
theorem Configuration.excludeOutputs_frame (conf : Configuration) (patterns : PatternSet)
    (steps : List Step) :
    ∃ excludes, conf.excludeOutputs patterns steps = { conf with buildExcludes := excludes } := by
  unfold excludeOutputs
  induction steps generalizing conf with
  | nil => exact ⟨conf.buildExcludes, rfl⟩
  | cons step steps ih =>
    rw [List.foldl_cons]
    split
    · obtain ⟨excludes, hconf⟩ := ih (conf.addBuildExclude (Pattern.escape step.output.fileName))
      exact ⟨excludes, hconf⟩
    · exact ih conf

/-! ## 3. Tools -/

namespace Tool

def folder : Tool → Path
  | qt tool => tool.sharedFolder
  | schema tool => tool.destinationFolder

/-- What a collect that succeeds does to a project. `steps` are those it makes for each target. -/
structure Collects (tool : Tool) (project project' : Project) (table : StepTable)
    (steps : Target → List Step) : Prop where
  frame : ∃ files, project' = { project with
    configurations := project'.configurations
    sourceFiles := files }
  gains : List.Forall₂ (fun conf conf' => conf.Gains [tool.folder] (steps conf.target) conf')
    project.configurations project'.configurations
  lists : ∀ target i, table.lists target i = true ↔
    ∃ conf ∈ project.configurations, conf.target = target ∧ conf.steps.length ≤ i ∧
      i < conf.steps.length + (steps target).length
  fresh : ∀ target, ∀ step ∈ steps target, step.resolved = none
  /-- Every target gets as many steps as any other. -/
  uniform : ∀ target target', (steps target).length = (steps target').length

end Tool

-- source files are all that changes
theorem Project.addSourceFiles_frame (project : Project) (files : List Path) :
    ∃ sources, project.addSourceFiles files = { project with sourceFiles := sources } := by
  unfold addSourceFiles
  induction files generalizing project with
  | nil => exact ⟨project.sourceFiles, rfl⟩
  | cons file files ih =>
    obtain ⟨sources, hproject⟩ := ih (project.addSourceFile file)
    exact ⟨sources, hproject⟩

/-- What registering steps for all configurations does, when `given` and then `prepare` leave
nothing but the folder of the tool and build excludes behind. -/
theorem Tool.Collects.of_addAll (tool : Tool) (steps : Target → List Step)
    (given prepare : Configuration → Configuration)
    (hgiven : ∀ conf, (given conf).target = conf.target ∧ (given conf).steps = conf.steps)
    (hprepare : ∀ conf, (prepare conf).target = conf.target ∧ (prepare conf).steps = conf.steps)
    (hgains : ∀ conf, ∃ excludes, prepare (given conf) = { conf with
      privateIncludePaths := Path.insertLast conf.privateIncludePaths tool.folder
      buildExcludes := excludes })
    (fresh : ∀ target, ∀ step ∈ steps target, step.resolved = none)
    (uniform : ∀ target target', (steps target).length = (steps target').length)
    (project : Project) (files : List Path) :
    let collected := Collection.empty.addAll (fun conf => steps conf.target) prepare
      (project.configurations.map given)
    tool.Collects project
      (({ project with configurations := collected.2 } : Project).addSourceFiles files)
      collected.1.table steps := by
  intro collected
  obtain ⟨sources, hsources⟩ := Project.addSourceFiles_frame
    { project with configurations := collected.2 } files
  rw [hsources]
  refine ⟨⟨sources, rfl⟩, ?_, fun target i => ?_, fresh, uniform⟩
  · show List.Forall₂ _ project.configurations collected.2
    rw [Collection.addAll_snd fun conf => (hprepare conf).2, List.map_map, List.forall₂_map_right_iff,
      List.forall₂_same]
    intro conf _
    obtain ⟨excludes, hconf⟩ := hgains conf
    refine ⟨excludes, ?_⟩
    rw [Function.comp_apply, hconf, (hgiven conf).1, (hgiven conf).2]
    rfl
  · rw [Collection.lists_addAll (fun conf => (hprepare conf).1) fun conf => (hprepare conf).2]
    have hempty : Collection.empty.table.lists target i = false := StepTable.lists_empty target i
    -- the positions are those of the prepared configurations, which have as many steps as before
    rw [hempty]
    constructor
    · rintro (h | ⟨_, hmem, htarget, hrange⟩)
      · cases h
      · obtain ⟨conf, hconf, rfl⟩ := List.mem_map.1 hmem
        rw [(hgiven conf).1] at htarget hrange
        rw [(hgiven conf).2, htarget] at hrange
        exact ⟨conf, hconf, htarget, hrange⟩
    · rintro ⟨conf, hconf, rfl, hrange⟩
      refine .inr ⟨given conf, List.mem_map_of_mem hconf, (hgiven conf).1, ?_⟩
      rw [(hgiven conf).1, (hgiven conf).2]
      exact hrange

/-! ## 4. The Qt tool -/

namespace Step

theorem metaObject_resolved (target : Target) (executable placeholderFolder outputFolder source : Path) :
    (metaObject target executable placeholderFolder outputFolder source).resolved = none := by
  unfold metaObject
  split <;> rfl

theorem projectVariant?_resolved {step variant : Step} (h : step.projectVariant? = some variant) :
    variant.resolved = step.resolved := by
  obtain ⟨intermediate, -, rfl⟩ := Option.map_eq_some_iff.1 h
  rfl

/-- Whether a step has a record for project files does not depend on the target. -/
theorem projectVariant?_metaObject (target target' : Target)
    (executable placeholderFolder outputFolder source : Path) :
    (metaObject target executable placeholderFolder outputFolder source).projectVariant?.isSome =
      (metaObject target' executable placeholderFolder outputFolder
        source).projectVariant?.isSome := by
  unfold metaObject
  split <;> rfl

end Step

namespace QtTool

theorem steps_resolved {tool : QtTool} {sources : QtSources} {target : Target} {step : Step}
    (h : step ∈ tool.steps sources target) : step.resolved = none := by
  rw [steps, List.mem_append, List.mem_append, or_assoc] at h
  -- meta-object steps with their variants, resources and forms
  rcases h with h | h | h
  · obtain ⟨file, -, hstep⟩ := List.mem_flatMap.1 h
    rcases List.mem_cons.1 hstep with rfl | hvariant
    · exact Step.metaObject_resolved _ _ _ _ _
    · rw [Step.projectVariant?_resolved (Option.mem_toList.1 hvariant)]
      exact Step.metaObject_resolved _ _ _ _ _
  · obtain ⟨file, -, rfl⟩ := List.mem_map.1 h
    rfl
  · obtain ⟨file, -, rfl⟩ := List.mem_map.1 h
    rfl

theorem length_steps (tool : QtTool) (sources : QtSources) (target target' : Target) :
    (tool.steps sources target).length = (tool.steps sources target').length := by
  have hmoc : (tool.mocSteps sources target).length = (tool.mocSteps sources target').length := by
    rw [mocSteps, mocSteps, List.length_flatMap, List.length_flatMap]
    congr 1
    -- a file has two records or one, for all targets alike
    apply List.map_congr_left
    intro file _
    rw [List.length_cons, List.length_cons, Option.length_toList, Option.length_toList,
      Step.projectVariant?_metaObject target target']
  rw [steps, steps]
  simp only [List.length_append, List.length_map, hmoc]

theorem prepare_frame (tool : QtTool) (sources : QtSources) (uncompiled : PatternSet)
    (conf : Configuration) :
    ∃ excludes, tool.prepare sources uncompiled conf = { conf with
      privateIncludePaths := Path.insertLast conf.privateIncludePaths tool.sharedFolder
      buildExcludes := excludes } :=
  (conf.addPrivateIncludePath tool.sharedFolder).excludeOutputs_frame uncompiled _

theorem collects {tool : QtTool} {fs : FileSystem} {project : Project} {table : StepTable}
    (h : (tool.collect fs project).result = .ok table) :
    ∃ steps, Tool.Collects (.qt tool) project (tool.collect fs project).project table steps := by
  unfold collect at h ⊢
  split at h
  · cases h
  · next sources hsources =>
    split at h
    · cases h
    · next uncompiled huncompiled =>
      obtain rfl := Except.ok.inj h
      have hprepare (conf : Configuration) :
          (tool.prepare sources uncompiled conf).target = conf.target ∧
            (tool.prepare sources uncompiled conf).steps = conf.steps := by
        obtain ⟨excludes, hconf⟩ := tool.prepare_frame sources uncompiled conf
        rw [hconf]
        exact ⟨rfl, rfl⟩
      have hcollects := Tool.Collects.of_addAll (.qt tool) (tool.steps sources) id
        (tool.prepare sources uncompiled) (fun _ => ⟨rfl, rfl⟩) hprepare
        (tool.prepare_frame sources uncompiled) (fun _ _ => steps_resolved)
        (tool.length_steps sources) project
      rw [List.map_id] at hcollects
      exact ⟨tool.steps sources, hcollects _⟩

end QtTool

/-! ## 5. The schema tool -/

namespace SchemaTool

theorem collects {tool : SchemaTool} {fs : FileSystem} {project : Project}
    {table : StepTable} (h : (tool.collect fs project).result = .ok table) :
    ∃ steps, Tool.Collects (.schema tool) project (tool.collect fs project).project table steps := by
  unfold collect at h ⊢
  split at h
  · cases h
  · next files hfiles =>
    split at h
    · cases h
    · next uncompiled huncompiled =>
      -- without schemas the configurations get the folder and no step
      by_cases hempty : files.isEmpty = true
      · simp only [if_pos hempty] at h ⊢
        obtain rfl := Except.ok.inj h
        refine ⟨fun _ => [], ⟨project.sourceFiles, rfl⟩, ?_, fun target i => ?_, ?_, ?_⟩
        · rw [List.forall₂_map_right_iff, List.forall₂_same]
          intro conf _
          refine ⟨conf.buildExcludes, ?_⟩
          rw [List.append_nil]
          rfl
        · rw [StepTable.lists_empty]
          constructor
          · intro h
            cases h
          · rintro ⟨conf, -, -, hle, hlt⟩
            exact absurd hlt (Nat.not_lt.2 hle)
        · intro _ _ hstep
          cases hstep
        · exact fun _ _ => rfl
      · simp only [if_neg hempty] at h ⊢
        split at h
        · cases h
        · next made hmade =>
          obtain rfl := Except.ok.inj h
          let stepsOf := steps (tool.executable fs)
            (files.zip (files.map (tool.outputFolder fs.currentPath)))
          have hprepare (conf : Configuration) :=
            conf.excludeOutputs_frame uncompiled (stepsOf conf.target)
          refine ⟨stepsOf, Tool.Collects.of_addAll (.schema tool) stepsOf
            (·.addPrivateIncludePath tool.destinationFolder)
            (fun conf => conf.excludeOutputs uncompiled (stepsOf conf.target))
            (fun _ => ⟨rfl, rfl⟩) (fun conf => ?_) (fun conf => hprepare _)
            (fun target step hstep => ?_) (fun target target' => ?_) project _⟩
          · obtain ⟨excludes, hconf⟩ := hprepare conf
            rw [hconf]
            exact ⟨rfl, rfl⟩
          · obtain ⟨file, -, rfl⟩ := List.mem_map.1 hstep
            rfl
          · show (steps _ _ target).length = (steps _ _ target').length
            rw [steps, steps, List.length_map, List.length_map]

end SchemaTool

/-! ## 6. Any tool -/

theorem Tool.collects {tool : Tool} {fs : FileSystem} {project : Project} {table : StepTable}
    (h : (tool.collect fs project).result = .ok table) :
    ∃ steps, tool.Collects project (tool.collect fs project).project table steps := by
  cases tool with
  | qt tool => exact tool.collects h
  | schema tool => exact tool.collects h

end BuildSteps
