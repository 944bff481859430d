import BuildSteps.Proofs.FileSystem.Growth
import BuildSteps.Proofs.Path.Components
import BuildSteps.Proofs.Pattern.Literal
import BuildSteps.Proofs.Tool.Outputs

/-!
# Outputs that are not compiled

The output of a file that is not to be compiled on its own is listed among the build excludes by
its name. The name is looked for anywhere in a path and whatever the case of its letters, so that it
also excludes the outputs whose path it is a part of.
-/

namespace BuildSteps

/-! ## 1. The length of names -/

theorem Text.sublist_of_mem_splitChars {separator : Char} {text piece : List Char}
    (h : piece ∈ splitChars separator text) : piece.Sublist text := by
  induction text generalizing piece with
  | nil =>
    obtain rfl := List.mem_singleton.1 h
    exact .refl []
  | cons c text ih =>
    rw [splitChars] at h
    split at h
    · rcases List.mem_cons.1 h with rfl | h
      · exact List.nil_sublist _
      · exact (ih h).cons c
    · split at h
      · next hnil => exact absurd hnil (splitChars_ne_nil separator text)
      · next first rest hpieces =>
        rw [hpieces] at ih
        rcases List.mem_cons.1 h with rfl | h
        · exact (ih List.mem_cons_self).cons_cons c
        · exact (ih (List.mem_cons_of_mem first h)).cons c

theorem Text.length_le_utf8ByteSize (text : String) : text.toList.length ≤ text.utf8ByteSize := by
  obtain ⟨chars, rfl⟩ : ∃ chars, text = String.ofList chars := ⟨_, String.ofList_toList.symm⟩
  rw [String.toList_ofList]
  induction chars with
  | nil => exact Nat.zero_le _
  | cons c chars ih =>
    have hpos := c.utf8Size_pos
    rw [String.ofList_cons, String.utf8ByteSize_append, String.utf8ByteSize_singleton,
      List.length_cons]
    omega

namespace Path

theorem length_fileStem_le (p : Path) : p.fileStem.toList.length ≤ p.text.toList.length := by
  rw [fileStem]
  cases hname : p.fileName? with
  | none => exact Nat.zero_le _
  | some name =>
    obtain ⟨chars, hchars, rfl⟩ := List.mem_map.1 (mem_pieces_of_fileName? hname)
    have hpiece := (Text.sublist_of_mem_splitChars hchars).length_le
    have hstem := (sublist_stem (String.ofList chars)).length_le
    rw [String.toList_ofList] at hstem
    exact hstem.trans hpiece

end Path

theorem length_outputName_le (source : Path) :
    (outputName source .metaObjectCompile).toList.length ≤ source.text.toList.length + 8 := by
  have hstem := source.length_fileStem_le
  have haffixes : ∀ cppSource, (StepKind.metaObjectCompile.affixes cppSource).1.toList.length +
      (StepKind.metaObjectCompile.affixes cppSource).2.toList.length ≤ 8 := by decide
  have haffixes := haffixes source.isCppSource
  rw [outputName_eq, String.toList_append, String.toList_append, List.length_append,
    List.length_append]
  omega

/-! ## 2. Build excludes -/

theorem Pattern.occurs_of_eq_append {name text front : String} (h : text = front ++ name) :
    Occurs name text := by
  refine ⟨front.toList, name.toList, [], ?_, List.forall₂_same.2 fun _ _ => .inl rfl⟩
  rw [h, String.toList_append, List.append_nil]

namespace Configuration

theorem mem_buildExcludes_excludeOutputs {conf : Configuration} {uncompiled : PatternSet}
    {steps : List Step} {text : String} :
    text ∈ (conf.excludeOutputs uncompiled steps).buildExcludes ↔
      text ∈ conf.buildExcludes ∨ ∃ step ∈ steps, uncompiled.matchesPath step.sourceFile = true ∧
        text = Pattern.escape step.output.fileName := by
  unfold excludeOutputs
  induction steps generalizing conf with
  | nil => simp
  | cons step steps ih =>
    rw [List.foldl_cons, ih, List.exists_mem_cons_iff]
    split
    · next h =>
      have hadd (pattern : String) : text ∈ (conf.addBuildExclude pattern).buildExcludes ↔
          text ∈ conf.buildExcludes ∨ text = pattern := by
        show text ∈ conf.buildExcludes.insertAllLast [_] ↔ _
        rw [List.mem_insertAllLast, List.mem_singleton]
      rw [hadd, or_assoc]
      simp [h]
    · next h => simp [h]

/-- The paths that are excluded are those in which the name of an output occurs whose file is not to
be compiled on its own. -/
theorem exists_ofTexts_excludeOutputs {conf : Configuration} (hconf : conf.buildExcludes = [])
    (uncompiled : PatternSet) {steps : List Step}
    (hshort : ∀ step ∈ steps,
      988 * step.output.fileName.toList.length + 32 ≤ Pattern.roomLimit) :
    ∃ excludes, PatternSet.ofTexts (conf.excludeOutputs uncompiled steps).buildExcludes =
      .ok excludes ∧ ∀ p : Path, excludes.matchesPath p = true ↔
        ∃ step ∈ steps, uncompiled.matchesPath step.sourceFile = true ∧
          Pattern.Occurs step.output.fileName p.text := by
  have hmem (text : String) := @mem_buildExcludes_excludeOutputs conf uncompiled steps text
  simp only [hconf, List.not_mem_nil, false_or] at hmem
  obtain ⟨excludes, hexcludes⟩ := PatternSet.exists_ofTexts_iff.2 fun text htext => by
    obtain ⟨step, hstep, -, rfl⟩ := (hmem text).1 htext
    obtain ⟨pattern, hpattern, -⟩ := Pattern.ofText_escape (hshort step hstep)
    exact ⟨pattern, hpattern⟩
  have hwritten {step : Step} (hstep : step ∈ steps) (text : String) :
      Pattern.writtenOccursIn (Pattern.escape step.output.fileName) text = true ↔
        Pattern.Occurs step.output.fileName text := by
    obtain ⟨pattern, hpattern, hoccurs⟩ := Pattern.ofText_escape (hshort step hstep)
    rw [Pattern.writtenOccursIn, hpattern, hoccurs]
  refine ⟨excludes, hexcludes, fun p => ?_⟩
  rw [PatternSet.matchesPath, PatternSet.matchesText_eq hexcludes, List.any_eq_true]
  constructor
  · rintro ⟨text, htext, hoccurs⟩
    obtain ⟨step, hstep, hmatches, rfl⟩ := (hmem text).1 htext
    exact ⟨step, hstep, hmatches, (hwritten hstep _).1 hoccurs⟩
  · rintro ⟨step, hstep, hmatches, hoccurs⟩
    exact ⟨_, (hmem _).2 ⟨step, hstep, hmatches, rfl⟩, (hwritten hstep _).2 hoccurs⟩

end Configuration

/-! ## 3. Collecting -/

namespace QtTool

variable {tool : QtTool} {fs : FileSystem} {project : Project} {table : StepTable}
  {sources : QtSources} {target : Target} {step : Step}

theorem mem_mocSteps_iff : step ∈ tool.mocSteps sources target ↔
    step ∈ tool.steps sources target ∧ step.kind = .metaObjectCompile := by
  refine ⟨fun h => ⟨List.mem_append_left _ (List.mem_append_left _ h), kind_of_mem_mocSteps h⟩, ?_⟩
  rintro ⟨h, hkind⟩
  rw [steps, List.append_assoc, List.mem_append] at h
  refine h.resolve_right fun h => ?_
  rcases List.mem_append.1 h with h | h
  · obtain ⟨file, -, rfl⟩ := List.mem_map.1 h
    cases hkind
  · obtain ⟨file, -, rfl⟩ := List.mem_map.1 h
    cases hkind

theorem fileName_output (h : step ∈ tool.steps sources target) :
    step.output.fileName = outputName step.sourceFile step.kind := by
  rw [(output_of_mem_steps h).1, outputPath, Path.fileName,
    Path.fileName?_join_name (isName_outputName _ _), Option.getD_some]

/-- A file with a marker has been read, so that its path is short enough for a pattern. -/
theorem length_fileName_output_le (hsources : tool.classify fs project = .ok sources)
    (h : step ∈ tool.mocSteps sources target) : step.output.fileName.toList.length ≤ 4103 := by
  obtain ⟨hstep, hkind⟩ := mem_mocSteps_iff.1 h
  have hname := length_outputName_le step.sourceFile
  rw [fileName_output hstep, hkind]
  obtain ⟨file, hfile, hrecord⟩ := List.mem_flatMap.1 h
  have hjob := (tool.metaObjectRecords_records target file).job_eq hrecord
  obtain rfl : step.sourceFile = file := congrArg Prod.snd hjob
  rw [(eq_of_classify hsources).1, List.mem_filter, MarkerScanner.scanFile] at hfile
  have hread : ∃ place, fs.find step.sourceFile = .ok place := by
    cases hfind : fs.find step.sourceFile with
    | ok place => exact ⟨place, rfl⟩
    | error e =>
      have herror : fs.read step.sourceFile = .error e := by rw [FileSystem.read, hfind]
      rw [herror] at hfile
      cases hfile.2
  obtain ⟨place, hplace⟩ := hread
  have hsize := (FileSystem.refusal?_eq_none_iff.1 (FileSystem.refusal?_of_find hplace)).2.2
  have hlength := Text.length_le_utf8ByteSize step.sourceFile.text
  omega

/-- Each configuration gets its steps, and the names of the outputs of files that are not to be
compiled on their own. -/
theorem configurations_of_collect (h : (tool.collect fs project).result = .ok table) :
    ∃ sources uncompiled, tool.classify fs project = .ok sources ∧
      PatternSet.ofTexts tool.uncompiledPatterns = .ok uncompiled ∧
      (tool.collect fs project).project.configurations = project.configurations.map fun conf =>
        { tool.prepare sources uncompiled conf with
          steps := conf.steps ++ tool.steps sources conf.target } := by
  unfold collect at h ⊢
  split at h
  · cases h
  · next sources hsources =>
    split at h
    · cases h
    · next uncompiled huncompiled =>
      refine ⟨sources, uncompiled, hsources, huncompiled, ?_⟩
      rw [← Collection.addAll_snd (fun conf => ?_) .empty]
      · obtain ⟨files, hfiles⟩ := Project.addSourceFiles_frame _ _
        exact congrArg Project.configurations hfiles
      · obtain ⟨excludes, hconf⟩ := tool.prepare_frame sources uncompiled conf
        rw [hconf]

/-- The name of an output occurs in it, and in every output that is the same. -/
theorem occurs_of_sameAs {s t : Step} (hs : s ∈ tool.steps sources target)
    (ht : t ∈ tool.steps sources target) (h : s.output.sameAs t.output = true) :
    Pattern.Occurs s.output.fileName t.output.text := by
  have hname := fileName_output hs
  obtain ⟨hsout, -⟩ := output_of_mem_steps hs
  obtain ⟨htout, -⟩ := output_of_mem_steps ht
  rw [hsout, htout, outputPath, outputPath,
    Path.sameAs_join_name_iff (isName_outputName _ _) (isName_outputName _ _)] at h
  obtain ⟨separator, -, htext⟩ := Path.text_join
    (p := tool.sharedFolder) (isName_outputName t.sourceFile t.kind).isAbsolute
  rw [hname, h, htout, outputPath]
  exact Pattern.occurs_of_eq_append htext

def LeavesOut (uncompiled : PatternSet) (made : List Step) (output : Path) : Prop :=
  ∃ step ∈ made, step.kind = .metaObjectCompile ∧ step.output.sameAs output = true ∧
    uncompiled.matchesPath step.sourceFile = true

instance (uncompiled : PatternSet) (made : List Step) (output : Path) :
    Decidable (LeavesOut uncompiled made output) :=
  inferInstanceAs (Decidable (∃ step ∈ made, _))

/-- **Build excludes match by name.** After a collect for configurations without build excludes, the
output of a meta-object step is excluded just when its path has somewhere in it, whatever the case,
the name of the output of a file that is not to be compiled on its own. All outputs of such files
are excluded. -/
theorem collect_excludes_exact (clean : ∀ conf ∈ project.configurations, conf.buildExcludes = [])
    (h : (tool.collect fs project).result = .ok table) :
    ∃ uncompiled, PatternSet.ofTexts tool.uncompiledPatterns = .ok uncompiled ∧
      List.Forall₂ (fun conf conf' => ∃ made excludes, conf'.steps = conf.steps ++ made ∧
        PatternSet.ofTexts conf'.buildExcludes = .ok excludes ∧
        ∀ step ∈ made, step.kind = .metaObjectCompile →
          (excludes.matchesPath step.output = true ↔ ∃ other ∈ made,
            other.kind = .metaObjectCompile ∧ uncompiled.matchesPath other.sourceFile = true ∧
              Pattern.Occurs other.output.fileName step.output.text) ∧
          (LeavesOut uncompiled made step.output → excludes.matchesPath step.output = true))
        project.configurations (tool.collect fs project).project.configurations := by
  obtain ⟨sources, uncompiled, hsources, huncompiled, hconfigurations⟩ :=
    configurations_of_collect h
  refine ⟨uncompiled, huncompiled, ?_⟩
  rw [hconfigurations, List.forall₂_map_right_iff, List.forall₂_same]
  intro conf hconf
  have hshort : ∀ step ∈ tool.mocSteps sources conf.target,
      988 * step.output.fileName.toList.length + 32 ≤ Pattern.roomLimit := by
    intro step hstep
    have hlength := length_fileName_output_le hsources hstep
    unfold Pattern.roomLimit
    omega
  obtain ⟨excludes, hexcludes, hmatches⟩ :=
    @Configuration.exists_ofTexts_excludeOutputs (conf.addPrivateIncludePath tool.sharedFolder)
      (clean conf hconf) uncompiled _ hshort
  have hexact (step : Step) : excludes.matchesPath step.output = true ↔
      ∃ other ∈ tool.steps sources conf.target, other.kind = .metaObjectCompile ∧
        uncompiled.matchesPath other.sourceFile = true ∧
          Pattern.Occurs other.output.fileName step.output.text := by
    simp only [hmatches, mem_mocSteps_iff, and_assoc]
  refine ⟨_, excludes, rfl, hexcludes, fun step hstep hkind => ⟨hexact step, ?_⟩⟩
  rintro ⟨other, hother, hothers, hsame, hpattern⟩
  exact (hexact step).2 ⟨other, hother, hothers, hpattern, occurs_of_sameAs hother hstep hsame⟩

def numberedProject : Project :=
  { Project.create "app" ⟨"/app"⟩ with
    sourceFiles := [⟨"/app/1.cpp"⟩, ⟨"/app/21.cpp"⟩]
    configurations := [Configuration.empty ⟨.win64, .vs2022, .debug⟩] }

def numberedFiles : FileSystem where
  workingDirectory := []
  entries := (["app"], .directory) :: [["app", "1.cpp"], ["app", "21.cpp"]].map
    (·, .file [0x51, 0x5F, 0x4F, 0x42, 0x4A, 0x45, 0x43, 0x54])

def firstLeftOut : QtTool :=
  { create ⟨"/qt"⟩ ⟨"/app/gen"⟩ with uncompiledPatterns := ["/1\\."] }

theorem collect_excludes_exact_numbered :
    let collected := firstLeftOut.collect numberedFiles numberedProject
    (∀ conf ∈ numberedProject.configurations, conf.buildExcludes = []) ∧
    collected.result = .ok ⟨[⟨⟨.win64, .vs2022, .debug⟩, [0, 1, 2, 3]⟩]⟩ ∧
    ∃ uncompiled, PatternSet.ofTexts firstLeftOut.uncompiledPatterns = .ok uncompiled ∧
      List.Forall₂ (fun conf conf' => ∃ made excludes, conf'.steps = conf.steps ++ made ∧
        PatternSet.ofTexts conf'.buildExcludes = .ok excludes ∧
        ∀ step ∈ made, step.kind = .metaObjectCompile →
          (excludes.matchesPath step.output = true ↔ ∃ other ∈ made,
            other.kind = .metaObjectCompile ∧ uncompiled.matchesPath other.sourceFile = true ∧
              Pattern.Occurs other.output.fileName step.output.text) ∧
          (LeavesOut uncompiled made step.output → excludes.matchesPath step.output = true))
        numberedProject.configurations collected.project.configurations := by
  intro collected
  have clean : ∀ conf ∈ numberedProject.configurations, conf.buildExcludes = [] := by decide
  have ok : collected.result = .ok ⟨[⟨⟨.win64, .vs2022, .debug⟩, [0, 1, 2, 3]⟩]⟩ := by
    decide +kernel
  exact ⟨clean, ok, collect_excludes_exact clean ok⟩

/-- The output of the other file is excluded as well, though no pattern names it. -/
theorem collect_excludes_longer_name :
    let collected := firstLeftOut.collect numberedFiles numberedProject
    let uncompiled : PatternSet := ⟨[Pattern.letters "/1.".toList]⟩
    let excludes : PatternSet := ⟨[Pattern.letters "1.moc".toList]⟩
    (∀ conf ∈ numberedProject.configurations, conf.buildExcludes = []) ∧
    collected.result.isOk = true ∧
    PatternSet.ofTexts firstLeftOut.uncompiledPatterns = .ok uncompiled ∧
    ∃ conf ∈ collected.project.configurations,
      PatternSet.ofTexts conf.buildExcludes = .ok excludes ∧
      ∃ step ∈ conf.steps, step.kind = .metaObjectCompile ∧
        step.output = ⟨"/app/gen/21.moc"⟩ ∧ excludes.matchesPath step.output = true ∧
        ¬ LeavesOut uncompiled conf.steps step.output := by
  decide +kernel

end QtTool

end BuildSteps
