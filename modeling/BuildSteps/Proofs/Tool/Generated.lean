import BuildSteps.Proofs.Tool.Outputs

/-!
# Generated files and schemas

The tools of a project run one after the other, and each adds what it generates to the source files
that the next one looks at. The files of the Qt tool are no schemas, so that the tool for schemas
picks what it would pick without the other.
-/

namespace BuildSteps

/-! ## 1. Names of schemas -/

theorem SchemaTool.lastTwo_of_isSchema {p : Path} {name : String} (hname : p.fileName? = some name)
    (h : isSchema p = true) : (Text.lastTwo name).map Char.toLower = ['o', 't'] := by
  rw [isSchema] at h
  split at h
  · cases h
  · next extension hextension =>
    rw [Path.extension?, hname, Option.bind_some, Path.splitExtension] at hextension
    split at hextension
    · cases hextension
    · cases hextension
    · obtain rfl := Option.some.inj hextension
      rw [beq_iff_eq, Text.lowercaseAscii, String.toList_ofList, ← String.toList_inj,
        String.toList_ofList, ← List.reverse_inj, ← List.map_reverse, List.reverse_reverse] at h
      rw [Text.lastTwo,
        ← List.takeWhile_append_dropWhile (p := (· != '.')) (l := name.toList.reverse),
        List.map_take, List.map_append, h]
      rfl

theorem SchemaTool.not_isSchema_join {name : String} (hname : Path.IsName name)
    (h : (Text.lastTwo name).map Char.toLower ≠ ['o', 't']) (folder : Path) :
    isSchema (folder.join ⟨name⟩) = false :=
  Bool.eq_false_iff.2 fun hschema =>
    h (lastTwo_of_isSchema (Path.fileName?_join_name hname folder) hschema)

/-! ## 2. Files of the Qt tool -/

theorem Path.isName_placeholder (source : Path) : IsName (source.fileStem ++ ".inl") := by
  have hlast : Text.lastTwo (source.fileStem ++ ".inl") = ['l', 'n'] :=
    Text.lastTwo_append (by decide) _
  refine ⟨?_, ?_, ?_, ?_⟩
  · exact fun heq => absurd (heq ▸ hlast) (by decide)
  · exact fun heq => absurd (heq ▸ hlast) (by decide)
  · exact fun heq => absurd (heq ▸ hlast) (by decide)
  · rw [String.toList_append, List.mem_append, not_or]
    exact ⟨source.separator_not_mem_fileStem, by decide⟩

namespace QtTool

variable {tool : QtTool} {sources : QtSources} {target : Target} {step : Step}

/-- A placeholder is named for its source file and stands where the outputs do. -/
theorem placeholder_of_mem_steps (h : step ∈ tool.steps sources target) {placeholder : Path}
    (hplaceholder : step.intermediateFile = some placeholder) :
    placeholder = tool.sharedFolder.join ⟨step.sourceFile.fileStem ++ ".inl"⟩ := by
  rw [steps, List.mem_append, List.mem_append, mocSteps] at h
  rcases h with (h | h) | h
  · obtain ⟨file, -, hmem⟩ := List.mem_flatMap.1 h
    unfold Step.metaObject Step.base Step.projectVariant? at hmem
    split at hmem
    · rcases List.mem_pair.1 hmem with rfl | rfl
      · exact (Option.some.inj hplaceholder).symm
      · exact (Option.some.inj hplaceholder).symm
    · obtain rfl := List.mem_singleton.1 hmem
      cases hplaceholder
  · obtain ⟨file, -, rfl⟩ := List.mem_map.1 h
    cases hplaceholder
  · obtain ⟨file, -, rfl⟩ := List.mem_map.1 h
    cases hplaceholder

theorem not_isSchema_of_mem_files (h : step ∈ tool.steps sources target) {file : Path}
    (hfile : file ∈ step.files) : SchemaTool.isSchema file = false := by
  obtain ⟨houtput, hkind⟩ := output_of_mem_steps h
  rcases List.mem_cons.1 hfile with rfl | hplaceholder
  · rw [houtput, outputPath]
    refine SchemaTool.not_isSchema_join (isName_outputName _ _) ?_ _
    rw [lastTwo_outputName]
    revert hkind
    cases step.kind <;> cases step.sourceFile.isCppSource <;> decide
  · rw [placeholder_of_mem_steps h (Option.mem_toList.1 hplaceholder)]
    refine SchemaTool.not_isSchema_join (Path.isName_placeholder step.sourceFile) ?_ _
    rw [Text.lastTwo_append (by decide)]
    decide

end QtTool

/-! ## 3. One tool after the other -/

theorem Exclusion.ofProject_congr {project project' : Project}
    (patterns : project'.excludedPatterns = project.excludedPatterns)
    (names : project'.configurations.map (·.precompiledNames) =
      project.configurations.map (·.precompiledNames)) (toolPatterns : List String) :
    ofProject project' toolPatterns = ofProject project toolPatterns := by
  have hnames : project'.precompiledFileNames = project.precompiledFileNames := by
    rw [Project.precompiledFileNames, Project.precompiledFileNames, List.flatMap_def,
      List.flatMap_def, names]
  rw [ofProject, ofProject, patterns, hnames]

/-- Files that are no schemas make no difference to what is selected. -/
theorem SchemaTool.select_congr {project project' : Project}
    (patterns : project'.excludedPatterns = project.excludedPatterns)
    (names : project'.configurations.map (·.precompiledNames) =
      project.configurations.map (·.precompiledNames)) {generated : List Path}
    (files : project'.sourceFiles = Path.insertAllLast project.sourceFiles generated)
    (others : ∀ file ∈ generated, isSchema file = false) (tool : SchemaTool) :
    tool.select project' = tool.select project := by
  rw [select, select, Exclusion.ofProject_congr patterns names]
  cases hexclusion : Exclusion.ofProject project tool.excludedPatterns with
  | error e => rfl
  | ok exclusion =>
    have hselect (files : List Path) : (exclusion.admitted files).filter isSchema =
        ((files.filter (!exclusion.excludes ·)).filter isSchema).eraseDupsBy Path.sameAs := by
      rw [Exclusion.admitted_eq]
      exact List.filter_eraseDupsBy fun p _ q _ => isSchema_eq_of_sameAs
    -- of the files that were added none is left
    have hadded (added : List Path) (hsub : added ⊆ generated) :
        (added.filter (!exclusion.excludes ·)).filter isSchema = [] := by
      refine List.filter_eq_nil_iff.2 fun file hfile => ?_
      rw [others file (hsub (List.mem_of_mem_filter hfile))]
      exact Bool.false_ne_true
    show Except.ok (List.filter _ _) = Except.ok (List.filter _ _)
    rw [hselect, hselect, files, Path.insertAllLast_eq, List.filter_append, List.filter_append,
      hadded _ (List.Subset.trans (List.eraseDupsBy_sublist _ _).subset (List.filter_subset_self _)),
      List.append_nil]

theorem QtTool.select_collect {tool : QtTool} {fs : FileSystem} {project : Project}
    {table : StepTable} (h : (tool.collect fs project).result = .ok table) (schemas : SchemaTool) :
    schemas.select (tool.collect fs project).project = schemas.select project := by
  obtain ⟨_, hframe, hgains, -⟩ := collects h
  obtain ⟨files, hproject⟩ := hframe
  have hpatterns :
      (tool.collect fs project).project.excludedPatterns = project.excludedPatterns := by
    rw [hproject]
  have hnames : (tool.collect fs project).project.configurations.map (·.precompiledNames) =
      project.configurations.map (·.precompiledNames) := by
    apply List.Forall₂.map_eq
    apply hgains.flip.imp
    rintro conf' conf ⟨_, rfl⟩
    rfl
  obtain ⟨generated, hfiles, hothers⟩ : ∃ generated,
      (tool.collect fs project).project.sourceFiles =
        Path.insertAllLast project.sourceFiles generated ∧
      ∀ file ∈ generated, SchemaTool.isSchema file = false := by
    unfold collect at h ⊢
    split at h
    · cases h
    · next sources _ =>
      split at h
      · cases h
      · next uncompiled _ =>
        refine ⟨_, Project.sourceFiles_addSourceFiles _ _, ?_⟩
        rw [Collection.generated_addAll]
        intro file hfile
        obtain ⟨conf, -, hconf⟩ := List.mem_flatMap.1 hfile
        obtain ⟨step, hstep, hmem⟩ := List.mem_flatMap.1 hconf
        exact not_isSchema_of_mem_files hstep hmem
  exact SchemaTool.select_congr hpatterns hnames hfiles hothers schemas

end BuildSteps
