import BuildSteps.Proofs.Scan

/-!
# Which files get meta-object code

A file gets meta-object code when discovery finds it, no pattern leaves it out, its extension is
scanned and its content holds a marker. Discovery and the scan have their own lists of extensions.
Without lists in the manifest the scan asks for one that discovery does not accept.
-/

namespace BuildSteps

/-! ## 1. Files below a folder -/

/-- Whether a path leads from a folder, name by name, to a regular file below it. -/
def FileSystem.HasBelow (fs : FileSystem) (folder file : Path) : Prop :=
  ∃ place names content, fs.find folder = .ok place ∧ names ≠ [] ∧
    (place ++ names, Node.file content) ∈ fs.entries ∧ file = folder.withNames names

theorem FileSystem.mem_walkFiles_iff_hasBelow {fs : FileSystem} {folder file : Path} :
    file ∈ fs.walkFiles folder ↔ fs.HasBelow folder file := by
  rw [mem_walkFiles]
  constructor
  · rintro ⟨place, names, hplace, hnames, rfl⟩
    obtain ⟨hne, content, hentry⟩ := mem_filesBelow.1 hnames
    exact ⟨place, names, content, hplace, hne, hentry, rfl⟩
  · rintro ⟨place, names, content, hplace, hne, hentry, rfl⟩
    exact ⟨place, names, hplace, mem_filesBelow.2 ⟨hne, content, hentry⟩, rfl⟩

/-! ## 2. Setups with the Qt tool -/

namespace Setup

variable {w : Workspace} {fs : FileSystem}

theorem ofProject_qt {p : ProjectManifest} {s : Setup} (h : ofProject w p = .ok s) {qt : QtSection}
    (hqt : p.qt = some qt) :
    s.project = projectOf w p ∧
      ∃ binDir, s.qt = some (qtTool (w.projectRoot p) binDir p qt) := by
  obtain ⟨hproject, -, ⟨hnone, -⟩ | ⟨other, binDir, hsome, htool⟩⟩ := ofProject_cases h
  · rw [hqt] at hnone
    cases hnone
  · obtain rfl := Option.some.inj (hqt.symm.trans hsome)
    exact ⟨hproject, binDir, htool⟩

theorem extensions_projectOf {p : ProjectManifest} (hqt : p.qt.isSome = true)
    (extensions : p.extensions = []) :
    (projectOf w p).extensions = ["cpp", "cc", "c", "h", "hpp", "hxx", "inl", "qrc", "ui"] ++
      if p.proto.isSome then ["proto"] else [] := by
  show Project.normalizeExtensions (Setup.extensions p) = _
  rw [Setup.extensions, extensions, if_pos List.isEmpty_nil, if_pos hqt]
  split <;> decide

/-- Of the extensions that are scanned when none are given, discovery accepts all but one. -/
theorem hasExtension_and_iff {p : ProjectManifest} (hqt : p.qt.isSome = true)
    (extensions : p.extensions = []) (file : Path) :
    file.hasExtension (projectOf w p).extensions = true ∧
        file.hasExtension QtTool.defaultScanExtensions = true ↔
      file.hasExtension QtTool.defaultScanExtensions = true ∧
        file.hasExtension ["cxx"] = false := by
  rw [extensions_projectOf hqt extensions]
  cases hextension : file.extension? with
  | none => simp [Path.hasExtension, hextension]
  | some extension =>
    have hhas (others : List String) :
        file.hasExtension others = others.contains (Text.lowercase extension) := by
      rw [Path.hasExtension, hextension]
    rw [hhas, hhas, hhas, and_comm]
    generalize Text.lowercase extension = e
    refine and_congr_right fun hscanned => ?_
    rw [List.contains_iff_mem] at hscanned
    have hcases : e = "h" ∨ e = "hpp" ∨ e = "hxx" ∨ e = "cpp" ∨ e = "cxx" ∨ e = "cc" := by
      simpa [QtTool.defaultScanExtensions] using hscanned
    rcases hcases with rfl | rfl | rfl | rfl | rfl | rfl <;> cases p.proto.isSome <;> decide

/-- The files that a scan lists for meta-object code, when sources are looked for everywhere. -/
theorem mem_moc_of_scan (tree : fs.IsTree) {p : ProjectManifest} {qt : QtSection} {s : Setup}
    {binDir : Path} (hproject : s.project = projectOf w p)
    (htool : s.qt = some (qtTool (w.projectRoot p) binDir p qt)) (sourceRoots : p.sourceRoots = [])
    {report : ScanReport} (h : s.scan fs = .ok report) {file : Path} :
    file ∈ report.moc ↔ fs.HasBelow ((w.projectRoot p).join ⟨""⟩) file ∧
      file.hasExtension (projectOf w p).extensions = true ∧
      (projectOf w p).isExcludedFile file = false ∧
      (projectOf w p).leavesOut qt.excludeRegex file = false ∧
      file.hasExtension (qtTool (w.projectRoot p) binDir p qt).scanExtensions = true ∧
      fs.holdsMarker (MarkerScanner.qtMarkers.map (·.toUTF8.toList)) file = true := by
  have hfresh : s.project.sourceFiles = [] := by rw [hproject]; rfl
  have hroots : s.project.sourceRoots = [⟨""⟩] := by
    rw [hproject]
    exact if_pos (List.isEmpty_iff.2 sourceRoots)
  rw [scan] at h
  split at h
  · cases h
  · next found hfound =>
    split at h
    · cases h
    · next sources hsources =>
      split at h
      · cases h
      · obtain rfl := Except.ok.inj h
        rw [qtSources, htool] at hsources
        have hmem (q : Path) : q ∈ found.sourceFiles ↔ _ :=
          Project.mem_sourceFiles_of_discover tree hfresh hroots hfound
        -- no file of the one walk is dropped as the same path as another
        have hdistinct : ∀ q ∈ found.sourceFiles, ∀ q' ∈ found.sourceFiles,
            q.sameAs q' = true → q = q' := fun q hq q' hq' =>
          tree.eq_of_sameAs ((hmem q).1 hq).1 ((hmem q').1 hq').1
        have hleaves :
            found.leavesOut (qtTool (w.projectRoot p) binDir p qt).excludedPatterns file =
              (projectOf w p).leavesOut qt.excludeRegex file := by
          rw [Project.eq_of_discover hfound, ← hproject]
          rfl
        have hmarker : (qtTool (w.projectRoot p) binDir p qt).scanner.scanFile fs file =
            fs.holdsMarker (MarkerScanner.qtMarkers.map (·.toUTF8.toList)) file :=
          MarkerScanner.scanFile_create _ _ fs file
        show file ∈ sources.moc ↔ _
        rw [(QtTool.eq_of_classify hsources).1, List.mem_filter, Project.mem_pick_iff hdistinct,
          hmem, FileSystem.mem_walkFiles_iff_hasBelow, hleaves, hmarker, hproject]
        simp only [and_assoc]
        rfl

/-! ## 3. Generation with default extensions -/

/-- **All extensions that are scanned but one.** After a generation for an accepted workspace that
succeeds, each configuration of a project that uses Qt and lists no extensions and no source roots
has meta-object steps for just these files: the regular files below the folder of the project that
can be read and hold a marker, that are not left out by name, by a pattern or as precompiled files,
and whose extension is scanned by default and is not `cxx`. -/
theorem exists_metaObject_step_iff {w : Workspace} (manifest : w.manifest.validate = .ok ())
    (workspace : w.validate = .ok ()) {fs : FileSystem} (tree : fs.IsTree) {setups : List Setup}
    (setup : ofWorkspace w = .ok setups) {name : String} {stats : GenerationStats}
    (result : ((solution name setups).generate fs).result = .ok stats) {p : ProjectManifest}
    (known : p ∈ w.manifest.projects) {qt : QtSection} (usesQt : p.qt = some qt)
    (extensions : p.extensions = []) (sourceRoots : p.sourceRoots = [])
    (scanExtensions : qt.scanExtensions = []) :
    ∃ m ∈ ((solution name setups).generate fs).solution.members, m.project.name = p.name ∧
      ∀ conf ∈ m.project.configurations, ∀ file,
        (∃ step ∈ conf.steps, step.job = (.metaObjectCompile, file)) ↔
          fs.HasBelow ((w.projectRoot p).join ⟨""⟩) file ∧
          fs.holdsMarker (MarkerScanner.qtMarkers.map (·.toUTF8.toList)) file = true ∧
          (projectOf w p).isExcludedFile file = false ∧
          (projectOf w p).leavesOut qt.excludeRegex file = false ∧
          file.hasExtension QtTool.defaultScanExtensions = true ∧
          file.hasExtension ["cxx"] = false := by
  obtain ⟨setups', hsetups', hprojects⟩ := ofWorkspace_ok workspace
  obtain rfl := Except.ok.inj (setup.symm.trans hsetups')
  obtain ⟨s, hs, hsetup⟩ := (forall₂_ofProjects setup).exists_of_mem known
  obtain ⟨hproject, binDir, htool⟩ := ofProject_qt hsetup usesQt
  obtain ⟨m, hm, report, ⟨hscan, hreport⟩, hname, hagrees⟩ :=
    (forall₂_agrees manifest hprojects tree result).exists_of_mem hs
  refine ⟨m, hm, ?_, fun conf hconf file => ?_⟩
  · rw [← hname, hreport, hproject]
    rfl
  · have hscanned : (qtTool (w.projectRoot p) binDir p qt).scanExtensions =
        QtTool.defaultScanExtensions := if_pos (List.isEmpty_iff.2 scanExtensions)
    have hextensions :=
      hasExtension_and_iff (w := w) (Option.isSome_of_eq_some usesQt) extensions file
    rw [← (hagrees conf hconf).mem_moc_iff, mem_moc_of_scan tree hproject htool sourceRoots hscan,
      hscanned]
    constructor
    · rintro ⟨hbelow, haccepted, hlisted, hleft, hscan, hmarker⟩
      exact ⟨hbelow, hmarker, hlisted, hleft, hextensions.1 ⟨haccepted, hscan⟩⟩
    · rintro ⟨hbelow, hmarker, hlisted, hleft, hboth⟩
      obtain ⟨haccepted, hscan⟩ := hextensions.2 hboth
      exact ⟨hbelow, haccepted, hlisted, hleft, hscan, hmarker⟩

def projectFor : ProjectManifest := (workspaceFor []).manifest.projects.head (by decide)

theorem exists_metaObject_step_iff_header :
    let w := workspaceFor [.win64, .linux]
    let generated := (solution "sample" (setupsFor [.win64, .linux])).generate workspaceFiles
    w.manifest.validate = .ok () ∧ w.validate = .ok () ∧ workspaceFiles.IsTree ∧
      ofWorkspace w = .ok (setupsFor [.win64, .linux]) ∧ generated.result = .ok twoStepsStats ∧
      projectFor ∈ w.manifest.projects ∧ (∃ qt, projectFor.qt = some qt ∧ qt.scanExtensions = []) ∧
      projectFor.extensions = [] ∧ projectFor.sourceRoots = [] ∧
      ∃ m ∈ generated.solution.members, m.project.name = projectFor.name ∧
        ∀ conf ∈ m.project.configurations, ∃ step ∈ conf.steps,
          step.job = (.metaObjectCompile, ⟨"/work/app/widget.h"⟩) := by
  intro w generated
  have manifest : w.manifest.validate = .ok () := by decide +kernel
  have workspace : w.validate = .ok () := by decide +kernel
  have tree : workspaceFiles.IsTree := ⟨by decide, by decide, by decide⟩
  have setup : ofWorkspace w = .ok (setupsFor [.win64, .linux]) := rfl
  have result : generated.result = .ok twoStepsStats := by decide +kernel
  have known : projectFor ∈ w.manifest.projects := List.mem_cons_self
  obtain ⟨qt, usesQt, scanExtensions, hpatterns⟩ :
      ∃ qt, projectFor.qt = some qt ∧ qt.scanExtensions = [] ∧ qt.excludeRegex = [] :=
    ⟨_, rfl, rfl, rfl⟩
  obtain ⟨m, hm, hname, hiff⟩ := exists_metaObject_step_iff manifest workspace tree setup result
    known usesQt rfl rfl scanExtensions
  refine ⟨manifest, workspace, tree, setup, result, known, ⟨qt, usesQt, scanExtensions⟩, rfl, rfl,
    m, hm, hname, fun conf hconf => (hiff conf hconf _).2 ?_⟩
  rw [hpatterns]
  exact ⟨FileSystem.mem_walkFiles_iff_hasBelow.1 (by decide +kernel), by decide +kernel⟩

def cxxFiles : FileSystem where
  workingDirectory := ["work"]
  entries := [
    (["work"], .directory), (["work", "app"], .directory),
    (["work", "app", "widget.cxx"], .file [0x51, 0x5F, 0x4F, 0x42, 0x4A, 0x45, 0x43, 0x54])]

/-- A translation unit with a scanned extension and a marker that has no step, since discovery does
not accept the extension. -/
theorem no_metaObject_step_cxx :
    let w := workspaceFor [.win64]
    let generated := (solution "sample" (setupsFor [.win64])).generate cxxFiles
    let file : Path := ⟨"/work/app/widget.cxx"⟩
    w.manifest.validate = .ok () ∧ w.validate = .ok () ∧ cxxFiles.IsTree ∧
      ofWorkspace w = .ok (setupsFor [.win64]) ∧ generated.result.isOk = true ∧
      projectFor ∈ w.manifest.projects ∧
      (∃ qt, projectFor.qt = some qt ∧ qt.scanExtensions = [] ∧ qt.excludeRegex = []) ∧
      projectFor.extensions = [] ∧ projectFor.sourceRoots = [] ∧
      cxxFiles.HasBelow ((w.projectRoot projectFor).join ⟨""⟩) file ∧
      file.hasExtension QtTool.defaultScanExtensions = true ∧
      cxxFiles.holdsMarker (MarkerScanner.qtMarkers.map (·.toUTF8.toList)) file = true ∧
      (projectOf w projectFor).isExcludedFile file = false ∧
      (projectOf w projectFor).leavesOut [] file = false ∧
      (∃ m ∈ generated.solution.members, m.project.configurations ≠ []) ∧
      ∀ m ∈ generated.solution.members, ∀ conf ∈ m.project.configurations, ∀ step ∈ conf.steps,
        step.job ≠ (.metaObjectCompile, file) := by
  intro w generated file
  have tree : cxxFiles.IsTree := ⟨by decide, by decide, by decide⟩
  have below : cxxFiles.HasBelow ((w.projectRoot projectFor).join ⟨""⟩) file :=
    FileSystem.mem_walkFiles_iff_hasBelow.1 (by decide +kernel)
  refine ⟨by decide +kernel, by decide +kernel, tree, rfl, by decide +kernel, List.mem_cons_self,
    ⟨_, rfl, rfl, rfl⟩, rfl, rfl, below, ?_⟩
  decide +kernel

end Setup

end BuildSteps
