import BuildSteps.Proofs.Tool.Failure
import BuildSteps.Proofs.Tool.Records

/-!
# Where steps come from

A tool makes steps only on files that were source files before and that are not left out. A file
that cannot be read has no meta-object step, and it is no error.
-/

namespace BuildSteps

/-! ## 1. The jobs of steps -/

namespace QtSources

theorem mem_jobs_iff {sources : QtSources} {kind : StepKind} {file : Path} :
    (kind, file) ∈ sources.jobs ↔
      (kind = .metaObjectCompile ∧ file ∈ sources.moc) ∨
      (kind = .resourceCompile ∧ file ∈ sources.resources) ∨
      (kind = .uiCompile ∧ file ∈ sources.forms) := by
  simp only [jobs, List.mem_append, List.mem_map, Prod.mk.injEq, exists_eq_right_right, or_assoc]
  tauto

/-- No record is hidden from both views. -/
theorem ServedBy.job_mem {sources : QtSources} {made : List Step} (h : sources.ServedBy made)
    {step : Step} (hstep : step ∈ made) : step.job ∈ sources.jobs := by
  have hshown (shown : StepFilter → Bool) (hview : Step.shownJobs shown made = sources.jobs)
      (hfilter : shown step.filter = true) : step.job ∈ sources.jobs :=
    hview ▸ List.mem_map_of_mem (List.mem_filter.2 ⟨hstep, hfilter⟩)
  cases hfilter : step.filter with
  | all => exact hshown _ h.fastBuild (by rw [hfilter]; rfl)
  | fastBuildOnly => exact hshown _ h.fastBuild (by rw [hfilter]; rfl)
  | excludeFastBuild => exact hshown _ h.projectFiles (by rw [hfilter]; rfl)

end QtSources

/-! ## 2. The files of steps -/

namespace Tool

def excludedPatterns : Tool → List String
  | qt tool => tool.excludedPatterns
  | schema tool => tool.excludedPatterns

/-- What holds of the file of every step that a tool makes for a project. -/
structure MayServe (tool : Tool) (fs : FileSystem) (project : Project) (step : Step) : Prop where
  known : step.sourceFile ∈ project.sourceFiles
  admitted : project.leavesOut tool.excludedPatterns step.sourceFile = false
  readable : ∀ e, fs.read step.sourceFile = .error e → step.kind ≠ .metaObjectCompile

theorem MayServe.of_mem_pick {tool : Tool} {fs : FileSystem} {project : Project} {step : Step}
    {wanted : Path → Bool} (h : step.sourceFile ∈ project.pick tool.excludedPatterns wanted)
    (readable : ∀ e, fs.read step.sourceFile = .error e → step.kind ≠ .metaObjectCompile) :
    tool.MayServe fs project step :=
  ⟨Project.pick_sublist.mem h, (Project.of_mem_pick h).1, readable⟩

theorem Serves.mayServe {tool : Tool} {fs : FileSystem} {project : Project} {made : List Step}
    (h : tool.Serves fs project made) {step : Step} (hstep : step ∈ made) :
    tool.MayServe fs project step := by
  cases tool with
  | qt tool =>
    obtain ⟨sources, hsources, hserved, -⟩ := h
    obtain ⟨hmoc, hresources, hforms⟩ := QtTool.eq_of_classify hsources
    rcases QtSources.mem_jobs_iff.1 (hserved.job_mem hstep) with
      ⟨-, hfile⟩ | ⟨hkind, hfile⟩ | ⟨hkind, hfile⟩
    · rw [hmoc, List.mem_filter] at hfile
      -- a file that cannot be read does not pass the scan
      refine .of_mem_pick hfile.1 fun e he => ?_
      rw [MarkerScanner.scanFile, he] at hfile
      exact absurd hfile.2 Bool.false_ne_true
    · rw [hresources] at hfile
      exact .of_mem_pick hfile fun _ _ => hkind ▸ StepKind.noConfusion
    · rw [hforms] at hfile
      exact .of_mem_pick hfile fun _ _ => hkind ▸ StepKind.noConfusion
  | schema tool =>
    obtain ⟨files, hfiles, hjobs, -⟩ := h
    have hjob : step.job ∈ files.map (StepKind.schemaCompile, ·) :=
      hjobs ▸ List.mem_map_of_mem hstep
    obtain ⟨file, hfile, heq⟩ := List.mem_map.1 hjob
    obtain ⟨hkind, rfl⟩ := Prod.mk.inj heq
    rw [SchemaTool.eq_of_select hfiles] at hfile
    exact .of_mem_pick hfile fun _ _ => hkind ▸ StepKind.noConfusion

theorem steps_of_collect_error {tool : Tool} {fs : FileSystem} {project : Project} {e : BuildError}
    (h : (tool.collect fs project).result = .error e) :
    List.Forall₂ (fun conf conf' => conf'.steps = conf.steps)
      project.configurations (tool.collect fs project).project.configurations := by
  have hfailure := failure_of_collect h
  generalize (tool.collect fs project).project = project' at hfailure ⊢
  cases hfailure with
  | pattern fault htext => exact List.forall₂_same.2 fun _ _ => rfl
  -- the folder of the headers is an include path by now
  | folder cause hfiles hfile =>
    rw [List.forall₂_map_right_iff, List.forall₂_same]
    exact fun _ _ => rfl

theorem forall₂_mayServe (tool : Tool) (fs : FileSystem) (project : Project) :
    List.Forall₂ (fun conf conf' => ∃ made,
        conf'.steps = conf.steps ++ made ∧ ∀ step ∈ made, tool.MayServe fs project step)
      project.configurations (tool.collect fs project).project.configurations := by
  cases hresult : (tool.collect fs project).result with
  | error e =>
    refine (steps_of_collect_error hresult).imp fun conf conf' hsteps => ⟨[], ?_, ?_⟩
    · rw [hsteps, List.append_nil]
    · exact fun _ hstep => absurd hstep List.not_mem_nil
  | ok table =>
    obtain ⟨steps, hregisters, hserves⟩ := registers hresult
    exact hregisters.appends.imp fun conf conf' hboth =>
      ⟨steps conf.target, hboth.2, fun _ hstep => (hserves conf.target).mayServe hstep⟩

/-! ## 3. Classification -/

/-- **Classification is exact, and exclusion comes first.** Files that are left out are never looked
at. Of the others with an extension that is scanned each is kept once, and a meta-object step is
made for those that can be read and hold a marker; where paths that are the same read alike, repeats
may as well be dropped at the end. Resource collections, forms and schemas are told by their
extension alone. Patterns are the only cause of failure, and no step is made on a file that was not
a source file before. -/
theorem classification_exact {tool : QtTool} {markers : List (List UInt8)} {chunkSize : Nat}
    (scanner : tool.scanner = .create markers chunkSize) (schemaTool : SchemaTool)
    (fs : FileSystem) (project : Project) :
    let scanned := project.pick tool.excludedPatterns (·.hasExtension tool.scanExtensions)
    (∀ sources, tool.classify fs project = .ok sources →
      sources.moc = scanned.filter (fs.holdsMarker markers) ∧
      ((∀ p ∈ project.sourceFiles, ∀ q ∈ project.sourceFiles,
          p.sameAs q = true → fs.read p = fs.read q) →
        sources.moc = project.pick tool.excludedPatterns fun file =>
          file.hasExtension tool.scanExtensions && fs.holdsMarker markers file) ∧
      sources.resources = project.pick tool.excludedPatterns (·.hasExtension ["qrc"]) ∧
      sources.forms = project.pick tool.excludedPatterns (·.hasExtension ["ui"])) ∧
    (∀ files, schemaTool.select project = .ok files →
      files = project.pick schemaTool.excludedPatterns SchemaTool.isSchema) ∧
    ((∃ sources, tool.classify fs project = .ok sources) ↔
      PatternSet.AllPatterns (project.excludedPatterns ++ tool.excludedPatterns)) ∧
    ((∃ files, schemaTool.select project = .ok files) ↔
      PatternSet.AllPatterns (project.excludedPatterns ++ schemaTool.excludedPatterns)) ∧
    ((∃ table, (tool.collect fs project).result = .ok table) ↔
      PatternSet.AllPatterns (project.excludedPatterns ++ tool.excludedPatterns) ∧
        PatternSet.AllPatterns tool.uncompiledPatterns) ∧
    (∀ fs' : FileSystem, (∀ file ∈ scanned, fs'.read file = fs.read file) →
      tool.classify fs' project = tool.classify fs project) ∧
    ∀ any : Tool, List.Forall₂ (fun conf conf' => ∃ made,
        conf'.steps = conf.steps ++ made ∧ ∀ step ∈ made, any.MayServe fs project step)
      project.configurations (any.collect fs project).project.configurations := by
  intro scanned
  have hscan : tool.scanner.scanFile fs = fs.holdsMarker markers := by
    funext file
    rw [scanner, MarkerScanner.scanFile_create]
  refine ⟨fun sources hsources => ?_, fun files => SchemaTool.eq_of_select,
    QtTool.exists_classify_iff, SchemaTool.exists_select_iff, QtTool.exists_collect_iff,
    fun fs' => QtTool.classify_congr, fun any => any.forall₂_mayServe fs project⟩
  obtain ⟨hmoc, hresources, hforms⟩ := QtTool.eq_of_classify hsources
  rw [hscan] at hmoc
  refine ⟨hmoc, fun halike => ?_, hresources, hforms⟩
  rw [hmoc, Project.filter_pick fun p hp q hq hsame => ?_]
  rw [FileSystem.holdsMarker, FileSystem.holdsMarker, halike p hp q hq hsame]

def assortedProject : Project :=
  { Project.create "app" ⟨"/app"⟩ with
    excludedPatterns := ["_"]
    sourceFiles := [⟨"/app/widget.h"⟩, ⟨"/app/old_widget.h"⟩, ⟨"/app/./widget.h"⟩, ⟨"/app/Pch.H"⟩,
      ⟨"/app/VIEW.CPP"⟩, ⟨"/app/plain.h"⟩, ⟨"/app/lost.h"⟩, ⟨"/app/icons.QRC"⟩, ⟨"/app/main.ui"⟩]
    configurations := [
      { Configuration.empty ⟨.win64, .vs2022, .debug⟩ with precompiledHeader := some "pch.h" }] }

def assortedFiles : FileSystem where
  workingDirectory := []
  entries := (["app"], .directory) ::
    (["app", "plain.h"], .file [0x51, 0x5F]) ::
    ["widget.h", "old_widget.h", "Pch.H", "VIEW.CPP"].map fun name =>
      (["app", name], .file [0x51, 0x5F, 0x4F, 0x42, 0x4A, 0x45, 0x43, 0x54])

theorem classification_exact_assorted :
    let tool := QtTool.create ⟨"/qt"⟩ ⟨"/app/moc"⟩
    let markers := MarkerScanner.qtMarkers.map fun m => m.toUTF8.toList
    let sources : QtSources :=
      ⟨[⟨"/app/widget.h"⟩, ⟨"/app/VIEW.CPP"⟩], [⟨"/app/icons.QRC"⟩], [⟨"/app/main.ui"⟩]⟩
    tool.scanner = .create markers MarkerScanner.defaultChunkSize ∧
    tool.classify assortedFiles assortedProject = .ok sources ∧
    sources.moc = (assortedProject.pick [] (·.hasExtension tool.scanExtensions)).filter
      (assortedFiles.holdsMarker markers) ∧
    sources.resources = assortedProject.pick [] (·.hasExtension ["qrc"]) ∧
    sources.forms = assortedProject.pick [] (·.hasExtension ["ui"]) := by
  intro tool markers sources
  have scanner : tool.scanner = .create markers MarkerScanner.defaultChunkSize := rfl
  have ok : tool.classify assortedFiles assortedProject = .ok sources := by decide +kernel
  obtain ⟨hmoc, -, hresources, hforms⟩ :=
    (classification_exact scanner (.create ⟨""⟩ ⟨""⟩ ⟨""⟩ ⟨""⟩) assortedFiles assortedProject).1
      sources ok
  exact ⟨scanner, ok, hmoc, hresources, hforms⟩

def aliasedProject : Project :=
  { Project.create "app" ⟨"/app"⟩ with
    sourceFiles := [⟨"/app/widget.h/"⟩, ⟨"/app/widget.h"⟩]
    configurations := [Configuration.empty ⟨.win64, .vs2022, .debug⟩] }

/-- Of two paths that are the same only the first is scanned, even if only the second can be
read. -/
theorem classify_misses_readable_repeat :
    let tool := QtTool.create ⟨"/qt"⟩ ⟨"/app/moc"⟩
    let markers := MarkerScanner.qtMarkers.map fun m => m.toUTF8.toList
    tool.classify assortedFiles aliasedProject = .ok ⟨[], [], []⟩ ∧
    (aliasedProject.pick tool.excludedPatterns fun file =>
      file.hasExtension tool.scanExtensions && assortedFiles.holdsMarker markers file) =
        [⟨"/app/widget.h"⟩] := by
  decide +kernel

end Tool

end BuildSteps
