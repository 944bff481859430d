import BuildSteps.Proofs.Project.Rediscovery
import BuildSteps.Proofs.Solution.Outline

/-!
# Collecting again

After a generation a project may list placeholders that it did not list before. No tool picks them
unless it searches their extension for markers, so that the tools make the same steps again. Only the
program of a step on a schema may be another one.
-/

namespace BuildSteps

/-! ## 1. Files that are not picked -/

namespace Path

theorem extension?_of_isInline {p : Path} (h : p.isInline = true) :
    p.extension? = none ∨ p.extension? = some "inl" := by
  rw [isInline, fileName] at h
  rw [extension?]
  cases hname : p.fileName? with
  | none => exact .inl rfl
  | some name =>
    rw [hname, Option.getD_some, Text.endsWith, List.isSuffixOf_iff_suffix] at h
    obtain ⟨front, hfront⟩ := h
    have hreversed : name.toList.reverse = 'l' :: 'n' :: 'i' :: '.' :: front.reverse := by
      rw [← hfront, List.reverse_append]
      rfl
    rw [Option.bind_some, splitExtension, hreversed]
    -- a name that only starts with a dot has no extension
    cases front.reverse with
    | nil => exact .inl rfl
    | cons c rest => exact .inr rfl

theorem hasExtension_of_isInline {p : Path} (h : p.isInline = true) {extensions : List String}
    (hnone : "inl" ∉ extensions) : p.hasExtension extensions = false := by
  have hlower : Text.lowercase "inl" = "inl" := by decide +kernel
  rw [hasExtension]
  rcases extension?_of_isInline h with hext | hext
  · rw [hext]
  · rw [hext]
    simpa [hlower] using hnone

end Path

theorem SchemaTool.not_isSchema_of_isInline {p : Path} (h : p.isInline = true) :
    isSchema p = false := by
  rw [isSchema]
  rcases Path.extension?_of_isInline h with hext | hext
  · rw [hext]
  · rw [hext]
    decide +kernel

/-! ## 2. Projects that differ in placeholders -/

/-- Whether two projects are the same but for placeholders among their source files and for programs
that a function shows alike. -/
structure Project.Alike (f : Path → Path) (project project' : Project) : Prop where
  outline : project'.outline f = project.outline f
  lasting : project'.lasting = project.lasting

namespace Project.Alike

variable {f : Path → Path} {project project' : Project} (h : project.Alike f project')

include h

theorem configurations : project'.configurations.map (·.mapExecutables f) =
    project.configurations.map (·.mapExecutables f) :=
  congrArg Project.configurations h.outline

theorem excludedPatterns : project'.excludedPatterns = project.excludedPatterns := by
  have hpatterns := congrArg Project.excludedPatterns h.outline
  exact hpatterns

theorem precompiledNames : project'.configurations.map (·.precompiledNames) =
    project.configurations.map (·.precompiledNames) := by
  have hnames := congrArg (List.map Configuration.precompiledNames) h.configurations
  rw [List.map_map, List.map_map] at hnames
  exact hnames

theorem ofProject (toolPatterns : List String) :
    Exclusion.ofProject project' toolPatterns = Exclusion.ofProject project toolPatterns :=
  Exclusion.ofProject_congr h.excludedPatterns h.precompiledNames toolPatterns

/-- A test that no placeholder passes picks the same files from both. -/
theorem filter_admitted (exclusion : Exclusion) {test : Path → Bool}
    (htest : ∀ p q, p.sameAs q = true → test p = test q)
    (hinline : ∀ file, file.isInline = true → test file = false) :
    (exclusion.admitted project'.sourceFiles).filter test =
      (exclusion.admitted project.sourceFiles).filter test := by
  have hlasting (project : Project) : (exclusion.admitted project.sourceFiles).filter test =
      ((project.lasting.filter (!exclusion.excludes ·)).filter test).eraseDupsBy Path.sameAs := by
    rw [Exclusion.admitted_eq, List.filter_eraseDupsBy fun p _ q _ => htest p q, Project.lasting]
    congr 1
    simp only [List.filter_filter]
    refine List.filter_congr fun file _ => ?_
    cases hfile : file.isInline with
    | true => rw [hinline file hfile, Bool.false_and, Bool.false_and]
    | false => simp
  rw [hlasting, hlasting, h.lasting]

end Project.Alike

/-- Where the files that last read the same, the Qt tool classifies them alike. -/
theorem QtTool.classify_again {f : Path → Path} {project project' : Project}
    (h : project.Alike f project') {tool : QtTool} (scan : "inl" ∉ tool.scanExtensions)
    {fs fs' : FileSystem} (hread : ∀ file ∈ project.lasting, fs'.read file = fs.read file) :
    tool.classify fs' project' = tool.classify fs project := by
  rw [classify, classify, h.ofProject]
  cases Exclusion.ofProject project tool.excludedPatterns with
  | error e => rfl
  | ok exclusion =>
    have hpick {extensions : List String} (hnone : "inl" ∉ extensions) :=
      h.filter_admitted exclusion
        (fun _ _ hsame => Path.hasExtension_eq_of_sameAs hsame extensions)
        (fun _ hfile => Path.hasExtension_of_isInline hfile hnone)
    have hqrc : "inl" ∉ ["qrc"] := by decide
    have hui : "inl" ∉ ["ui"] := by decide
    simp only [hpick scan, hpick hqrc, hpick hui]
    -- no candidate for a meta-object step is a placeholder
    have hmoc : tool.scanner.filterFiles fs' ((exclusion.admitted project.sourceFiles).filter
          (·.hasExtension tool.scanExtensions)) =
        tool.scanner.filterFiles fs ((exclusion.admitted project.sourceFiles).filter
          (·.hasExtension tool.scanExtensions)) := by
      refine List.filter_congr fun file hfile => ?_
      obtain ⟨hmem, hext⟩ := List.mem_filter.1 hfile
      have hlasts : file ∈ project.lasting := by
        refine List.mem_filter.2 ⟨?_, ?_⟩
        · rw [Exclusion.admitted_eq] at hmem
          exact List.mem_of_mem_filter ((List.eraseDupsBy_sublist _ _).mem hmem)
        · rw [Bool.not_eq_true']
          refine Bool.eq_false_iff.2 fun hinline => ?_
          rw [Path.hasExtension_of_isInline hinline scan] at hext
          cases hext
      rw [MarkerScanner.scanFile, MarkerScanner.scanFile, hread file hlasts]
    rw [hmoc]

theorem SchemaTool.select_again {f : Path → Path} {project project' : Project}
    (h : project.Alike f project') (tool : SchemaTool) :
    tool.select project' = tool.select project := by
  rw [select, select, h.ofProject]
  cases Exclusion.ofProject project tool.excludedPatterns with
  | error e => rfl
  | ok exclusion =>
    simp only [h.filter_admitted exclusion (fun _ _ => isSchema_eq_of_sameAs)
      fun _ => not_isSchema_of_isInline]

/-! ## 3. Registering steps -/

variable {f : Path → Path}

theorem Configuration.mapExecutables_addStep (conf : Configuration) (step : Step) :
    (conf.mapExecutables f).addStep (step.mapExecutable f) =
      (conf.addStep step).mapExecutables f := by
  rw [addStep, addStep, mapExecutables, mapExecutables, List.map_append]
  rfl

namespace Collection

theorem addSteps_mapExecutables (c : Collection) (conf : Configuration) (steps : List Step) :
    c.addSteps (conf.mapExecutables f) (steps.map (·.mapExecutable f)) =
      ((c.addSteps conf steps).1, (c.addSteps conf steps).2.mapExecutables f) := by
  induction steps generalizing c conf with
  | nil => rfl
  | cons step steps ih =>
    have hlength : (conf.mapExecutables f).steps.length = conf.steps.length := List.length_map _
    rw [List.map_cons, addSteps, addSteps, hlength, Configuration.mapExecutables_addStep]
    exact ih _ _

/-- What is registered depends on configurations and steps only as far as their outlines show. -/
theorem addAll_mapExecutables (f : Path → Path) (steps : Target → List Step)
    {prepare : Configuration → Configuration}
    (hprepare : ∀ conf, prepare (conf.mapExecutables f) = (prepare conf).mapExecutables f)
    (c : Collection) (confs : List Configuration) :
    c.addAll (fun conf => (steps conf.target).map (·.mapExecutable f)) prepare
        (confs.map (·.mapExecutables f)) =
      ((c.addAll (fun conf => steps conf.target) prepare confs).1,
        (c.addAll (fun conf => steps conf.target) prepare confs).2.map
          (·.mapExecutables f)) := by
  induction confs generalizing c with
  | nil => rfl
  | cons conf confs ih =>
    have htarget : (conf.mapExecutables f).target = conf.target := rfl
    rw [List.map_cons, addAll, addAll, htarget, hprepare, addSteps_mapExecutables]
    simp only [ih]
    rfl

end Collection

theorem Configuration.excludeOutputs_mapExecutables (conf : Configuration) (excludes : PatternSet)
    (steps : List Step) :
    (conf.mapExecutables f).excludeOutputs excludes steps =
      (conf.excludeOutputs excludes steps).mapExecutables f := by
  unfold excludeOutputs
  induction steps generalizing conf with
  | nil => rfl
  | cons step steps ih =>
    rw [List.foldl_cons, List.foldl_cons, ← ih]
    congr 1
    split <;> rfl

-- which outputs are excluded does not depend on programs
theorem Configuration.excludeOutputs_map (conf : Configuration) (excludes : PatternSet)
    (steps : List Step) :
    conf.excludeOutputs excludes (steps.map (·.mapExecutable f)) =
      conf.excludeOutputs excludes steps := by
  unfold excludeOutputs
  rw [List.foldl_map]
  rfl

theorem Project.Alike.outline_configurations {project project' : Project}
    (h : project.Alike f project') {confs confs' : List Configuration}
    (hconfs : confs'.map (·.mapExecutables f) = confs.map (·.mapExecutables f)) :
    ({ project' with configurations := confs' } : Project).outline f =
      ({ project with configurations := confs } : Project).outline f := by
  have houtline (project : Project) (confs : List Configuration) :
      ({ project with configurations := confs } : Project).outline f =
        { project.outline f with configurations := confs.map (·.mapExecutables f) } := rfl
  refine (houtline project' confs').trans (.trans ?_ (houtline project confs).symm)
  rw [h.outline, hconfs]

theorem Project.outline_addSourceFiles (project : Project) (files : List Path) :
    (project.addSourceFiles files).outline f = project.outline f := by
  obtain ⟨sources, hsources⟩ := project.addSourceFiles_frame files
  rw [hsources]
  rfl

theorem Project.lasting_addSourceFiles (project : Project) (files : List Path) :
    (project.addSourceFiles files).lasting =
      Path.insertAllLast project.lasting (files.filter (!·.isInline)) := by
  rw [lasting, sourceFiles_addSourceFiles]
  exact Path.filter_insertAllLast (fun p q hpq => congrArg (!·) (Path.isInline_eq_of_sameAs hpq)) _ _

/-- Steps that are shown alike make no difference between projects that are alike. -/
theorem Project.Alike.addAll {project project' : Project} (h : project.Alike f project')
    {steps steps' : Target → List Step}
    (hsteps : ∀ target, (steps' target).map (·.mapExecutable f) =
      (steps target).map (·.mapExecutable f))
    {prepare prepare' : Configuration → Configuration}
    (hshown : ∀ conf, prepare (conf.mapExecutables f) = (prepare conf).mapExecutables f)
    (hprepare : ∀ conf, prepare' conf = prepare conf) :
    let collected := Collection.empty.addAll (fun conf => steps conf.target) prepare
      project.configurations
    let collected' := Collection.empty.addAll (fun conf => steps' conf.target) prepare'
      project'.configurations
    collected'.1 = collected.1 ∧
      Alike f
        (({ project with configurations := collected.2 } : Project).addSourceFiles
          collected.1.generated)
        (({ project' with configurations := collected'.2 } : Project).addSourceFiles
          collected'.1.generated) := by
  intro collected collected'
  obtain rfl : prepare' = prepare := funext hprepare
  have hoften (steps : Target → List Step) :=
    Collection.empty.addAll_mapExecutables f steps hshown
  have hboth : (collected'.1, collected'.2.map (·.mapExecutables f)) =
      (collected.1, collected.2.map (·.mapExecutables f)) := by
    rw [← hoften steps', ← hoften steps, h.configurations]
    simp only [hsteps]
  obtain ⟨hcollection, hconfs⟩ := Prod.mk.inj hboth
  refine ⟨hcollection, ?_, ?_⟩
  · rw [outline_addSourceFiles, outline_addSourceFiles]
    exact h.outline_configurations hconfs
  · rw [lasting_addSourceFiles, lasting_addSourceFiles, hcollection]
    exact congrArg (Path.insertAllLast · _) h.lasting

/-! ## 4. Tools -/

variable {project project' : Project} {fs fs' : FileSystem}

theorem QtTool.collect_again (h : project.Alike f project') {tool : QtTool}
    (scan : "inl" ∉ tool.scanExtensions)
    (hread : ∀ file ∈ project.lasting, fs'.read file = fs.read file) :
    (tool.collect fs' project').result = (tool.collect fs project).result ∧
      Project.Alike f (tool.collect fs project).project (tool.collect fs' project').project := by
  rw [collect, collect, classify_again h scan hread]
  cases tool.classify fs project with
  | error e => exact ⟨rfl, h⟩
  | ok sources =>
    cases PatternSet.ofTexts tool.uncompiledPatterns with
    | error e => exact ⟨rfl, h⟩
    | ok uncompiled =>
      have hshown (conf : Configuration) :
          tool.prepare sources uncompiled (conf.mapExecutables f) =
            (tool.prepare sources uncompiled conf).mapExecutables f :=
        (conf.addPrivateIncludePath tool.sharedFolder).excludeOutputs_mapExecutables uncompiled _
      have hsteps (target : Target) : (tool.steps sources target).map (·.mapExecutable f) =
          (tool.steps sources target).map (·.mapExecutable f) := rfl
      obtain ⟨hcollection, halike⟩ := h.addAll hsteps hshown fun _ => rfl
      exact ⟨congrArg (Except.ok ·.table) hcollection, halike⟩

theorem SchemaTool.map_mapExecutable_steps (executable : Path) (files : List (Path × Path))
    (target : Target) :
    (steps executable files target).map (·.mapExecutable f) = steps (f executable) files target := by
  rw [steps, steps, List.map_map]
  rfl

/-- Folders that were created once need not be created again. -/
theorem SchemaTool.createFolders_again {folders : List Path} {made : FileSystem}
    (h : createFolders fs folders = (.ok (), made)) (hgrows : made.Grows fs') :
    createFolders fs' folders = (.ok (), fs') := by
  induction folders generalizing fs with
  | nil => rfl
  | cons folder folders ih =>
    rw [createFolders] at h ⊢
    have hlater (fs : FileSystem) (h : createFolders fs folders = (.ok (), made)) :
        fs.Grows fs' := by
      have hextends := extends_createFolders Path.IsInlineName fs folders
      rw [h] at hextends
      exact hextends.grows.trans hgrows
    split at h
    · next hfolder => rw [if_pos ((hlater fs h).isDirectory hfolder), ih h]
    · split at h
      · cases h
      · next between hbetween =>
        rcases FileSystem.isDirectory_of_makeDirectories hbetween with hempty | hfolder
        · simp only [fs'.makeDirectories_of_components hempty, ih h, ite_self]
        · rw [if_pos ((hlater between h).isDirectory hfolder), ih h]

theorem Project.Alike.addPrivateIncludePath (h : project.Alike f project') (folder : Path) :
    Project.Alike f
      { project with
        configurations := project.configurations.map (·.addPrivateIncludePath folder) }
      { project' with
        configurations := project'.configurations.map (·.addPrivateIncludePath folder) } := by
  refine ⟨h.outline_configurations ?_, h.lasting⟩
  have hcomm (confs : List Configuration) :
      (confs.map (·.addPrivateIncludePath folder)).map (·.mapExecutables f) =
        (confs.map (·.mapExecutables f)).map (·.addPrivateIncludePath folder) := by
    rw [List.map_map, List.map_map]
    rfl
  rw [hcomm, hcomm, h.configurations]

/-- The tool for schemas makes its steps again; the folders for its outputs are there. -/
theorem SchemaTool.collect_again (h : project.Alike f project') {tool : SchemaTool}
    {table : StepTable} (hresult : (tool.collect fs project).result = .ok table)
    (hgrows : (tool.collect fs project).files.Grows fs')
    (hfolder : fs'.workingDirectory = fs.workingDirectory)
    (hprogram : f (tool.executable fs') = f (tool.executable fs)) :
    (tool.collect fs' project').result = .ok table ∧
      Project.Alike f (tool.collect fs project).project (tool.collect fs' project').project := by
  have hpath : fs'.currentPath = fs.currentPath := by
    rw [FileSystem.currentPath, hfolder, FileSystem.currentPath]
  unfold collect at hresult hgrows ⊢
  rw [select_again h, hpath]
  split at hresult
  · cases hresult
  · next files hfiles =>
    split at hresult
    · cases hresult
    · next uncompiled huncompiled =>
      simp only [hfiles, huncompiled] at hgrows ⊢
      have halike := h.addPrivateIncludePath tool.destinationFolder
      by_cases hempty : files.isEmpty = true
      · simp only [if_pos hempty] at hresult ⊢
        exact ⟨hresult, halike⟩
      · simp only [if_neg hempty] at hresult hgrows ⊢
        split at hresult
        · cases hresult
        · next made hmade =>
          simp only [hmade] at hgrows ⊢
          rw [createFolders_again hmade hgrows]
          obtain rfl := Except.ok.inj hresult
          let stepsOf (executable : Path) :=
            steps executable (files.zip (files.map (tool.outputFolder fs.currentPath)))
          have hsteps (target : Target) :
              (stepsOf (tool.executable fs') target).map (·.mapExecutable f) =
                (stepsOf (tool.executable fs) target).map (·.mapExecutable f) := by
            rw [map_mapExecutable_steps, hprogram, map_mapExecutable_steps]
          have hshown (conf : Configuration) := conf.excludeOutputs_mapExecutables (f := f) uncompiled
            (stepsOf (tool.executable fs) conf.target)
          have hprepare (conf : Configuration) :
              conf.excludeOutputs uncompiled (stepsOf (tool.executable fs') conf.target) =
                conf.excludeOutputs uncompiled (stepsOf (tool.executable fs) conf.target) := by
            rw [← conf.excludeOutputs_map (f := f), hsteps, conf.excludeOutputs_map]
          obtain ⟨hcollection, hcollected⟩ := halike.addAll hsteps hshown hprepare
          exact ⟨congrArg (Except.ok ·.table) hcollection, hcollected⟩

end BuildSteps
