import BuildSteps.Proofs.Tool.Collection

/-!
# Collects that fail

A collect fails over a pattern that cannot be read or, for the schema tool, over the folder of a
header that cannot be created. Patterns are read before anything is changed, but folders are created
when the configurations have the folder of the tool already.
-/

namespace BuildSteps

/-! ## 1. What can fail -/

/-- The error of a pattern set is about one of its texts. -/
theorem PatternSet.invalidPattern_of_ofTexts {texts : List String} {e : BuildError}
    (h : ofTexts texts = .error e) : ∃ text ∈ texts, ∃ fault, e = .invalidPattern text fault := by
  have hread : readAll texts = .error e := by
    rw [ofTexts] at h
    split at h
    · next hfail => rw [hfail, Except.error.inj h]
    · cases h
  clear h
  induction texts with
  | nil => cases hread
  | cons text texts ih =>
    rw [readAll] at hread
    split at hread
    · next fault _ =>
      obtain rfl := Except.error.inj hread
      exact ⟨text, List.mem_cons_self, fault, rfl⟩
    · split at hread
      · next hrest =>
        obtain rfl := Except.error.inj hread
        obtain ⟨other, hother, hfault⟩ := ih hrest
        exact ⟨other, List.mem_cons_of_mem text hother, hfault⟩
      · cases hread

theorem Exclusion.invalidPattern_of_ofProject {project : Project} {patterns : List String}
    {e : BuildError} (h : ofProject project patterns = .error e) :
    ∃ text ∈ project.excludedPatterns ++ patterns, ∃ fault, e = .invalidPattern text fault := by
  rw [ofProject] at h
  split at h
  · next hfail =>
    obtain rfl := Except.error.inj h
    exact PatternSet.invalidPattern_of_ofTexts hfail
  · cases h

/-- Creating folders fails over one of them. -/
theorem SchemaTool.cannotCreate_of_createFolders {fs : FileSystem} {folders : List Path}
    {e : BuildError} (h : (createFolders fs folders).1 = .error e) :
    ∃ folder ∈ folders, ∃ cause, e = .cannotCreate folder cause := by
  induction folders generalizing fs with
  | nil => cases h
  | cons folder folders ih =>
    have hrest {fs : FileSystem} (h : (createFolders fs folders).1 = .error e) :
        ∃ other ∈ folder :: folders, ∃ cause, e = .cannotCreate other cause := by
      obtain ⟨other, hother, hcause⟩ := ih h
      exact ⟨other, List.mem_cons_of_mem folder hother, hcause⟩
    rw [createFolders] at h
    split at h
    · exact hrest h
    · split at h
      · next cause _ _ =>
        obtain rfl := Except.error.inj h
        exact ⟨folder, List.mem_cons_self, cause, rfl⟩
      · exact hrest h

/-! ## 2. What a failed collect leaves behind -/

namespace Tool

def patternTexts (project : Project) : Tool → List String
  | qt tool => project.excludedPatterns ++ tool.excludedPatterns ++ tool.uncompiledPatterns
  | schema tool => project.excludedPatterns ++ tool.excludedPatterns ++ tool.uncompiledPatterns

/-- How a collect can fail: the error, and the project that is left behind. -/
inductive Failure (fs : FileSystem) (project : Project) : Tool → BuildError → Project → Prop
  | pattern {tool : Tool} {text : String} (fault : Pattern.Fault) :
    text ∈ tool.patternTexts project →
      Failure fs project tool (.invalidPattern text fault) project
  | folder {tool : SchemaTool} {files : List Path} {file : Path} (cause : FileError) :
    tool.select project = .ok files → file ∈ files →
      Failure fs project (schema tool)
        (.cannotCreate (tool.outputFolder fs.currentPath file) cause)
        { project with configurations :=
            project.configurations.map (·.addPrivateIncludePath tool.destinationFolder) }

end Tool

section

variable {fs : FileSystem} {project : Project} {e : BuildError}

theorem QtTool.failure_of_collect {tool : QtTool}
    (h : (tool.collect fs project).result = .error e) :
    (Tool.qt tool).Failure fs project e (tool.collect fs project).project := by
  unfold collect at h ⊢
  split at h
  · next hfail =>
    obtain rfl := Except.error.inj h
    rw [classify] at hfail
    split at hfail
    · next hexclusion =>
      obtain rfl := Except.error.inj hfail
      obtain ⟨text, htext, fault, rfl⟩ := Exclusion.invalidPattern_of_ofProject hexclusion
      exact .pattern fault (List.mem_append_left _ htext)
    · cases hfail
  · split at h
    · next hfail =>
      obtain rfl := Except.error.inj h
      obtain ⟨text, htext, fault, rfl⟩ := PatternSet.invalidPattern_of_ofTexts hfail
      exact .pattern fault (List.mem_append_right _ htext)
    · cases h

theorem SchemaTool.failure_of_collect {tool : SchemaTool}
    (h : (tool.collect fs project).result = .error e) :
    (Tool.schema tool).Failure fs project e (tool.collect fs project).project := by
  unfold collect at h ⊢
  split at h
  · next hfail =>
    obtain rfl := Except.error.inj h
    rw [select] at hfail
    split at hfail
    · next hexclusion =>
      obtain rfl := Except.error.inj hfail
      obtain ⟨text, htext, fault, rfl⟩ := Exclusion.invalidPattern_of_ofProject hexclusion
      exact .pattern fault (List.mem_append_left _ htext)
    · cases hfail
  · next files hfiles =>
    split at h
    · next hfail =>
      obtain rfl := Except.error.inj h
      obtain ⟨text, htext, fault, rfl⟩ := PatternSet.invalidPattern_of_ofTexts hfail
      exact .pattern fault (List.mem_append_right _ htext)
    · by_cases hempty : files.isEmpty = true
      · simp only [if_pos hempty] at h
        cases h
      -- from here on the configurations have the folder
      · simp only [if_neg hempty] at h ⊢
        split at h
        · next hmade =>
          obtain rfl := Except.error.inj h
          obtain ⟨folder, hfolder, cause, rfl⟩ :=
            cannotCreate_of_createFolders (congrArg Prod.fst hmade)
          obtain ⟨file, hfile, rfl⟩ := List.mem_map.1 hfolder
          exact .folder cause hfiles hfile
        · cases h

/-- A collect that fails does so in one of the two ways. -/
theorem Tool.failure_of_collect {tool : Tool} (h : (tool.collect fs project).result = .error e) :
    tool.Failure fs project e (tool.collect fs project).project := by
  cases tool with
  | qt tool => exact tool.failure_of_collect h
  | schema tool => exact tool.failure_of_collect h

end

/-! ## 3. Failing without a trace -/

theorem Configuration.addPrivateIncludePath_eq_self_iff {conf : Configuration} {folder : Path} :
    conf.addPrivateIncludePath folder = conf ↔ folder.isIn conf.privateIncludePaths = true := by
  rw [addPrivateIncludePath, Path.insertLast]
  split
  · next h => exact iff_of_true rfl h
  · next h =>
    refine iff_of_false (fun heq => ?_) h
    have hpaths := congrArg privateIncludePaths heq
    exact List.cons_ne_nil folder [] (List.append_right_eq_self.1 hpaths)

namespace Tool

theorem Failure.unchanged_iff {fs : FileSystem} {project project' : Project} {tool : Tool}
    {e : BuildError} (h : tool.Failure fs project e project') :
    project' = project ↔ (∃ text fault, e = .invalidPattern text fault) ∨
      ∀ conf ∈ project.configurations, tool.folder.isIn conf.privateIncludePaths = true := by
  cases h with
  | pattern fault htext => exact iff_of_true rfl (.inl ⟨_, fault, rfl⟩)
  | @folder tool files file cause hfiles hfile =>
    have hmap : project.configurations.map (·.addPrivateIncludePath tool.destinationFolder) =
          project.configurations ↔
        ∀ conf ∈ project.configurations,
          tool.destinationFolder.isIn conf.privateIncludePaths = true := by
      conv_lhs => rhs; rw [← List.map_id project.configurations]
      rw [List.map_inj_left]
      exact forall₂_congr fun conf _ => Configuration.addPrivateIncludePath_eq_self_iff
    constructor
    · exact fun heq => .inr (hmap.1 (congrArg Project.configurations heq))
    · rintro (⟨text, fault, heq⟩ | hall)
      · cases heq
      · rw [hmap.2 hall]

theorem Failure.unchanged {fs : FileSystem} {project project' : Project} {tool : QtTool}
    {e : BuildError} (h : (qt tool).Failure fs project e project') : project' = project := by
  cases h with
  | pattern fault htext => rfl

/-- **When a failed collect leaves no trace.** A collect that fails over a pattern leaves the
project as it was, and the Qt tool fails in no other way. The schema tool also fails when it cannot
create the folder of a header. Its destination is then among the private include paths of every
configuration and nothing else is changed, so that the project is as it was only if the destination
was there already. -/
theorem collect_error_exact {tool : Tool} {fs : FileSystem} {project : Project} {e : BuildError}
    (h : (tool.collect fs project).result = .error e) :
    let project' := (tool.collect fs project).project
    tool.Failure fs project e project' ∧
      (project' = project ↔ (∃ text fault, e = .invalidPattern text fault) ∨
        ∀ conf ∈ project.configurations, tool.folder.isIn conf.privateIncludePaths = true) ∧
      ∀ qtTool, tool = qt qtTool → project' = project := by
  intro project'
  have hfailure : tool.Failure fs project e project' := failure_of_collect h
  refine ⟨hfailure, hfailure.unchanged_iff, ?_⟩
  rintro qtTool rfl
  exact hfailure.unchanged

def schemaProject : Project :=
  { Project.create "app" ⟨"/app"⟩ with
    sourceFiles := [⟨"/app/message.proto"⟩]
    configurations := [Configuration.empty ⟨.win64, .vs2022, .debug⟩] }

def blockedFiles : FileSystem where
  workingDirectory := []
  entries := [(["app"], .directory), (["app", "message.proto"], .file []),
    (["app", "gen"], .file [])]

theorem collect_error_exact_blocked :
    let tool := schema (.create ⟨"/app"⟩ ⟨"/app/gen"⟩ ⟨"/bin/protoc"⟩ ⟨"/bin/protoc"⟩)
    let project' := (tool.collect blockedFiles schemaProject).project
    let e := .cannotCreate ⟨"/app/gen/"⟩ .alreadyExists
    (tool.collect blockedFiles schemaProject).result = .error e ∧
    tool.Failure blockedFiles schemaProject e project' ∧
      (project' = schemaProject ↔ (∃ text fault, e = .invalidPattern text fault) ∨
        ∀ conf ∈ schemaProject.configurations,
          tool.folder.isIn conf.privateIncludePaths = true) ∧
      ∀ qtTool, tool = qt qtTool → project' = schemaProject := by
  intro tool project' e
  have failed : (tool.collect blockedFiles schemaProject).result = .error e := by decide +kernel
  exact ⟨failed, collect_error_exact failed⟩

/-- The collect fails and leaves a private include path behind. -/
theorem collect_changes_blocked :
    let tool := schema (.create ⟨"/app"⟩ ⟨"/app/gen"⟩ ⟨"/bin/protoc"⟩ ⟨"/bin/protoc"⟩)
    let collected := tool.collect blockedFiles schemaProject
    collected.result = .error (.cannotCreate ⟨"/app/gen/"⟩ .alreadyExists) ∧
      schemaProject.configurations.map (·.privateIncludePaths) = [[]] ∧
      collected.project.configurations.map (·.privateIncludePaths) = [[⟨"/app/gen"⟩]] := by
  decide +kernel

end Tool

end BuildSteps
