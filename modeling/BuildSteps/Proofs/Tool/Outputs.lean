import BuildSteps.Proofs.Path.FileName
import BuildSteps.Proofs.Tool.Records

/-!
# Outputs of the Qt tool

All outputs go into one folder. Their names are made from the stem of the source file, with endings
that tell the generators apart, so that two source files share an output exactly when their stems
are equal and the same generator treats them alike.
-/

namespace BuildSteps

/-! ## 1. Names -/

/-- What stands before and after the stem in the name of an output; meta-object code of translation
units and of headers is named differently. -/
def StepKind.affixes (kind : StepKind) (cppSource : Bool) : String × String :=
  match kind with
  | .metaObjectCompile => if cppSource then ("", ".moc") else ("moc_", ".cpp")
  | .resourceCompile => ("", ".rcc")
  | .uiCompile => ("ui_", ".h")
  | .schemaCompile => ("", ".pb.h")

theorem StepKind.affixes_congr {kind : StepKind} {cpp cpp' : Bool}
    (h : kind = .metaObjectCompile → cpp = cpp') : kind.affixes cpp = kind.affixes cpp' := by
  cases kind with
  | metaObjectCompile => rw [h rfl]
  | _ => rfl

theorem outputName_eq (source : Path) (kind : StepKind) :
    outputName source kind = (kind.affixes source.isCppSource).1 ++ source.fileStem ++
      (kind.affixes source.isCppSource).2 := by
  cases kind with
  | metaObjectCompile =>
    rw [outputName, StepKind.affixes]
    cases source.isCppSource
    · rfl
    · rw [if_pos rfl, if_pos rfl, String.empty_append]
  | resourceCompile => rw [outputName, StepKind.affixes, String.empty_append]
  | uiCompile => rfl
  | schemaCompile => rw [outputName, StepKind.affixes, String.empty_append]

def Text.lastTwo (text : String) : List Char := text.toList.reverse.take 2

theorem Text.lastTwo_append {tail : String} (h : 2 ≤ tail.toList.length) (text : String) :
    lastTwo (text ++ tail) = lastTwo tail := by
  rw [lastTwo, lastTwo, String.toList_append, List.reverse_append,
    List.take_append_of_le_length (by rwa [List.length_reverse])]

theorem lastTwo_outputName (source : Path) (kind : StepKind) :
    Text.lastTwo (outputName source kind) = Text.lastTwo (kind.affixes source.isCppSource).2 := by
  rw [outputName_eq, Text.lastTwo_append]
  cases kind <;> cases source.isCppSource <;> decide

theorem isName_outputName (source : Path) (kind : StepKind) :
    Path.IsName (outputName source kind) := by
  have hlast := lastTwo_outputName source kind
  have hne (text : String)
      (h : ∀ cppSource, Text.lastTwo (kind.affixes cppSource).2 ≠ Text.lastTwo text) :
      outputName source kind ≠ text := fun heq => h source.isCppSource (heq ▸ hlast.symm)
  refine ⟨hne _ ?_, hne _ ?_, hne _ ?_, ?_⟩
  · cases kind <;> decide
  · cases kind <;> decide
  · cases kind <;> decide
  · rw [outputName_eq, String.toList_append, String.toList_append, List.mem_append, List.mem_append,
      not_or, not_or]
    refine ⟨⟨?_, source.separator_not_mem_fileStem⟩, ?_⟩
    · cases kind <;> cases source.isCppSource <;> decide
    · cases kind <;> cases source.isCppSource <;> decide

/-- The ends of the names give the Qt generators away. -/
theorem StepKind.eq_of_lastTwo {kind kind' : StepKind} (h : kind ≠ .schemaCompile)
    (h' : kind' ≠ .schemaCompile) : ∀ {cpp cpp' : Bool},
      Text.lastTwo (kind.affixes cpp).2 = Text.lastTwo (kind'.affixes cpp').2 →
        kind = kind' ∧ (kind = .metaObjectCompile → cpp = cpp') := by
  cases kind <;> cases kind' <;> first | contradiction | decide

/-- Outputs of the Qt generators have the same name only if generator and stem are the same. -/
theorem outputName_eq_iff {source other : Path} {kind kind' : StepKind}
    (h : kind ≠ .schemaCompile) (h' : kind' ≠ .schemaCompile) :
    outputName source kind = outputName other kind' ↔
      kind = kind' ∧ source.fileStem = other.fileStem ∧
        (kind = .metaObjectCompile → source.isCppSource = other.isCppSource) := by
  constructor
  · intro heq
    have hlast : Text.lastTwo (kind.affixes source.isCppSource).2 =
        Text.lastTwo (kind'.affixes other.isCppSource).2 := by
      rw [← lastTwo_outputName, ← lastTwo_outputName, heq]
    obtain ⟨rfl, hcpp⟩ := StepKind.eq_of_lastTwo h h' hlast
    rw [outputName_eq, outputName_eq, StepKind.affixes_congr hcpp] at heq
    exact ⟨rfl, (String.append_right_inj _).1 ((String.append_left_inj _).1 heq), hcpp⟩
  · rintro ⟨rfl, hstem, hcpp⟩
    rw [outputName_eq, outputName_eq, hstem, StepKind.affixes_congr hcpp]

/-! ## 2. Steps -/

namespace QtTool

theorem output_of_mem_steps {tool : QtTool} {sources : QtSources} {target : Target} {step : Step}
    (h : step ∈ tool.steps sources target) :
    step.output = outputPath step.sourceFile step.kind tool.sharedFolder ∧
      step.kind ≠ .schemaCompile := by
  rw [steps, List.mem_append, List.mem_append, mocSteps] at h
  rcases h with (h | h) | h
  · obtain ⟨file, -, hmem⟩ := List.mem_flatMap.1 h
    rcases List.mem_cons.1 hmem with rfl | hvariant
    · unfold Step.metaObject Step.base
      split <;> exact ⟨by dsimp only, StepKind.noConfusion⟩
    · -- the record for project files has the output of the other one
      unfold Step.metaObject Step.base Step.projectVariant? at hvariant
      split at hvariant
      · obtain rfl := List.mem_singleton.1 hvariant
        exact ⟨by dsimp only, StepKind.noConfusion⟩
      · cases hvariant
  · obtain ⟨file, -, rfl⟩ := List.mem_map.1 h
    unfold Step.resource Step.base
    exact ⟨by dsimp only, StepKind.noConfusion⟩
  · obtain ⟨file, -, rfl⟩ := List.mem_map.1 h
    unfold Step.form Step.base
    exact ⟨by dsimp only, StepKind.noConfusion⟩

theorem sameAs_output_iff {tool : QtTool} {sources : QtSources} {target : Target} {s t : Step}
    (hs : s ∈ tool.steps sources target) (ht : t ∈ tool.steps sources target) :
    s.output.sameAs t.output = true ↔
      s.kind = t.kind ∧ s.sourceFile.fileStem = t.sourceFile.fileStem ∧
        (s.kind = .metaObjectCompile → s.sourceFile.isCppSource = t.sourceFile.isCppSource) := by
  obtain ⟨hsout, hskind⟩ := output_of_mem_steps hs
  obtain ⟨htout, htkind⟩ := output_of_mem_steps ht
  rw [hsout, htout, outputPath, outputPath,
    Path.sameAs_join_name_iff (isName_outputName _ _) (isName_outputName _ _),
    outputName_eq_iff hskind htkind]

end QtTool

/-! ## 3. Shared outputs -/

/-- What holds of two steps of one configuration, the second after the first: if they share their
output, they are on different files, or they are the two records of one translation unit. -/
def Step.SharesByName (s t : Step) : Prop :=
  s.output.sameAs t.output = true →
    s.sourceFile.sameAs t.sourceFile = false ∨ MetaObjectRecords s.sourceFile [s, t]

theorem MetaObjectRecords.pairwise {file : Path} {records : List Step}
    (h : MetaObjectRecords file records) : records.Pairwise Step.SharesByName := by
  cases h with
  | header => exact List.pairwise_singleton _ _
  | source hcpp hbootstrap hvariant hfast hproject houtput hplaceholder hplaceholder' =>
    obtain rfl := congrArg Prod.snd hbootstrap
    exact List.pairwise_pair.2 fun _ => .inr
      (.source hcpp hbootstrap hvariant hfast hproject houtput hplaceholder hplaceholder')

theorem Step.pairwise_map {files : List Path} (h : files.Pairwise fun p q => p.sameAs q = false)
    {make : Path → Step} (hmake : ∀ file, (make file).sourceFile = file) :
    (files.map make).Pairwise SharesByName :=
  List.pairwise_map.2 (h.imp fun {p q} hpq _ => .inl (by rw [hmake, hmake, hpq]))

namespace QtTool

variable {tool : QtTool} {sources : QtSources} {target : Target}

theorem pairwise_mocSteps (h : sources.moc.Pairwise fun p q => p.sameAs q = false) :
    (tool.mocSteps sources target).Pairwise Step.SharesByName := by
  rw [mocSteps]
  refine List.pairwise_flatMap.2 ⟨fun file _ => ?_, h.imp fun {p q} hpq s hs t ht _ => .inl ?_⟩
  · exact (tool.metaObjectRecords_records target file).pairwise
  · have hsource := congrArg Prod.snd ((tool.metaObjectRecords_records target p).job_eq hs)
    have hsource' := congrArg Prod.snd ((tool.metaObjectRecords_records target q).job_eq ht)
    rw [show s.sourceFile = p from hsource, show t.sourceFile = q from hsource', hpq]

theorem kind_of_mem_mocSteps {step : Step} (h : step ∈ tool.mocSteps sources target) :
    step.kind = .metaObjectCompile := by
  obtain ⟨file, -, hmem⟩ := List.mem_flatMap.1 h
  exact congrArg Prod.fst ((tool.metaObjectRecords_records target file).job_eq hmem)

theorem pairwise_steps (hmoc : sources.moc.Pairwise fun p q => p.sameAs q = false)
    (hresources : sources.resources.Pairwise fun p q => p.sameAs q = false)
    (hforms : sources.forms.Pairwise fun p q => p.sameAs q = false) :
    (tool.steps sources target).Pairwise Step.SharesByName := by
  -- steps of different kinds share no output
  have hkinds {s t : Step} (hs : s ∈ tool.steps sources target)
      (ht : t ∈ tool.steps sources target) (hne : s.kind ≠ t.kind) : s.SharesByName t :=
    fun hsame => absurd ((sameAs_output_iff hs ht).1 hsame).1 hne
  have hfront : (tool.mocSteps sources target ++
      sources.resources.map (Step.resource target tool.executables.rcc tool.sharedFolder)).Pairwise
        Step.SharesByName := by
    refine List.pairwise_append.2
      ⟨pairwise_mocSteps hmoc, Step.pairwise_map hresources fun _ => rfl, fun s hs t ht => ?_⟩
    refine hkinds (List.mem_append_left _ (List.mem_append_left _ hs))
      (List.mem_append_left _ (List.mem_append_right _ ht)) ?_
    obtain ⟨_, -, rfl⟩ := List.mem_map.1 ht
    rw [kind_of_mem_mocSteps hs]
    exact StepKind.noConfusion
  refine List.pairwise_append.2 ⟨hfront, Step.pairwise_map hforms fun _ => rfl, fun s hs t ht => ?_⟩
  refine hkinds (List.mem_append_left _ hs) (List.mem_append_right _ ht) ?_
  obtain ⟨_, -, rfl⟩ := List.mem_map.1 ht
  rcases List.mem_append.1 hs with hmem | hmem
  · rw [kind_of_mem_mocSteps hmem]
    exact StepKind.noConfusion
  · obtain ⟨_, -, rfl⟩ := List.mem_map.1 hmem
    exact StepKind.noConfusion

/-- **Outputs are shared by name alone.** In a project without steps, two of the steps that are
collected for a configuration have the same output exactly when the same generator is run on files
with the same stem, where translation units and headers count as different. No file has two steps
with the same output but a translation unit, whose two records share it. -/
theorem collect_shares_outputs {fs : FileSystem} {project : Project} {table : StepTable}
    (clean : ∀ conf ∈ project.configurations, conf.steps = [])
    (h : (tool.collect fs project).result = .ok table) :
    ∀ conf ∈ (tool.collect fs project).project.configurations,
      (∀ s ∈ conf.steps, ∀ t ∈ conf.steps,
        s.output.sameAs t.output = true ↔
          s.kind = t.kind ∧ s.sourceFile.fileStem = t.sourceFile.fileStem ∧
            (s.kind = .metaObjectCompile →
              s.sourceFile.isCppSource = t.sourceFile.isCppSource)) ∧
      conf.steps.Pairwise Step.SharesByName := by
  intro conf' hconf'
  obtain ⟨sources, hsources, hregisters⟩ := registers h
  obtain ⟨conf, hconf, htarget, hsteps⟩ := hregisters.appends.flip.exists_of_mem hconf'
  rw [clean conf hconf, List.nil_append] at hsteps
  rw [hsteps]
  refine ⟨fun s hs t ht => sameAs_output_iff hs ht, ?_⟩
  obtain ⟨hmoc, hresources, hforms⟩ := eq_of_classify hsources
  exact pairwise_steps (hmoc ▸ Project.pairwise_pick.sublist List.filter_sublist)
    (hresources ▸ Project.pairwise_pick) (hforms ▸ Project.pairwise_pick)

def twinProject : Project :=
  { Project.create "app" ⟨"/app"⟩ with
    sourceFiles := [⟨"/app/a/widget.h"⟩, ⟨"/app/b/widget.h"⟩, ⟨"/app/widget.cpp"⟩]
    configurations := [Configuration.empty ⟨.win64, .vs2022, .debug⟩] }

def twinFiles : FileSystem where
  workingDirectory := []
  entries := [["app"], ["app", "a"], ["app", "b"]].map (·, .directory) ++
    [["app", "a", "widget.h"], ["app", "b", "widget.h"], ["app", "widget.cpp"]].map
      (·, .file [0x51, 0x5F, 0x4F, 0x42, 0x4A, 0x45, 0x43, 0x54])

theorem collect_shares_outputs_twin :
    let tool := QtTool.create ⟨"/qt"⟩ ⟨"/app/moc"⟩
    let collected := tool.collect twinFiles twinProject
    (∀ conf ∈ twinProject.configurations, conf.steps = []) ∧
    collected.result = .ok ⟨[⟨⟨.win64, .vs2022, .debug⟩, [0, 1, 2, 3]⟩]⟩ ∧
    ∀ conf ∈ collected.project.configurations,
      (∀ s ∈ conf.steps, ∀ t ∈ conf.steps,
        s.output.sameAs t.output = true ↔
          s.kind = t.kind ∧ s.sourceFile.fileStem = t.sourceFile.fileStem ∧
            (s.kind = .metaObjectCompile →
              s.sourceFile.isCppSource = t.sourceFile.isCppSource)) ∧
      conf.steps.Pairwise Step.SharesByName := by
  intro tool collected
  have clean : ∀ conf ∈ twinProject.configurations, conf.steps = [] := by decide
  have ok : collected.result = .ok ⟨[⟨⟨.win64, .vs2022, .debug⟩, [0, 1, 2, 3]⟩]⟩ := by
    decide +kernel
  exact ⟨clean, ok, collect_shares_outputs clean ok⟩

/-- The steps on the two headers write the same file. -/
theorem collect_overwrites_twin :
    let collected := (QtTool.create ⟨"/qt"⟩ ⟨"/app/moc"⟩).collect twinFiles twinProject
    (∀ conf ∈ twinProject.configurations, conf.steps = []) ∧ collected.result.isOk = true ∧
    ∃ conf ∈ collected.project.configurations, ∃ s ∈ conf.steps, ∃ t ∈ conf.steps,
      s.output = ⟨"/app/moc/moc_widget.cpp"⟩ ∧ t.output = ⟨"/app/moc/moc_widget.cpp"⟩ ∧
        s.sourceFile = ⟨"/app/a/widget.h"⟩ ∧ t.sourceFile = ⟨"/app/b/widget.h"⟩ := by
  decide +kernel

end QtTool

end BuildSteps
