import BuildSteps.Proofs.Path.Parent
import BuildSteps.Proofs.Tool.Outputs

/-!
# The tree of the headers

The header of a schema goes as far below the destination as the folder of the schema goes beyond the
root of the schemas, or beyond the place where the two part. Schemas that part from the root at
different places can therefore meet in one header.
-/

namespace BuildSteps

theorem FileSystem.isAbsolute_currentPath (fs : FileSystem) : fs.currentPath.isAbsolute = true := by
  rw [currentPath, pathOf, Path.isAbsolute, String.toList_append]
  rfl

namespace SchemaTool

/-! ## 1. Branches -/

/-- The folder where the folder of a file and the root of the schemas part, both resolved. -/
def fork (tool : SchemaTool) (workingDirectory file : Path) : Path :=
  (file.folderFrom workingDirectory).commonAncestor (tool.sourceFolder.resolveFrom workingDirectory)

def branch (tool : SchemaTool) (workingDirectory file : Path) : List Path.Component :=
  Path.unshared (file.folderFrom workingDirectory).components
    (tool.sourceFolder.resolveFrom workingDirectory).components

theorem components_folderFrom (tool : SchemaTool) (cwd file : Path) :
    (file.folderFrom cwd).components =
      (tool.fork cwd file).components ++ tool.branch cwd file := by
  rw [fork, Path.components_commonAncestor, branch, Path.shared_append_unshared]

theorem branch_of_below {tool : SchemaTool} {cwd file : Path} {rest : List Path.Component}
    (h : (file.folderFrom cwd).components =
      (tool.sourceFolder.resolveFrom cwd).components ++ rest) : tool.branch cwd file = rest := by
  rw [branch, h, Path.unshared_append_self]

/-- The folder of a file below the root parts from it at the root. -/
theorem fork_of_below {tool : SchemaTool} {cwd file : Path}
    (h : (tool.sourceFolder.resolveFrom cwd).components <+: (file.folderFrom cwd).components) :
    (tool.fork cwd file).components = (tool.sourceFolder.resolveFrom cwd).components := by
  obtain ⟨rest, hrest⟩ := h
  have hfolder := tool.components_folderFrom cwd file
  rw [branch_of_below hrest.symm, ← hrest] at hfolder
  exact (List.append_cancel_right hfolder).symm

section

variable {cwd : Path}

theorem exists_names_branch (hcwd : cwd.isAbsolute = true) (tool : SchemaTool) (file : Path) :
    ∃ names : List String, (∀ name ∈ names, Path.IsName name) ∧
      tool.branch cwd file = names.map .name := by
  obtain ⟨hnames, hfolder⟩ := Path.components_resolveFrom hcwd (file.parent?.getD ⟨""⟩)
  obtain ⟨-, hroot⟩ := Path.components_resolveFrom hcwd tool.sourceFolder
  -- both start at the root of the file system, so only names are left
  have hbranch : tool.branch cwd file =
      Path.unshared ((Path.resolveNames (cwd.join (file.parent?.getD ⟨""⟩)).components).map .name)
        ((Path.resolveNames (cwd.join tool.sourceFolder).components).map .name) := by
    rw [branch, Path.folderFrom, hfolder, hroot, Path.unshared, if_pos rfl]
  obtain ⟨_, names, heq, -, hmap⟩ := List.map_eq_append_iff.1
    (hbranch ▸ (Path.shared_append_unshared _ _).symm)
  exact ⟨names, fun name hname => hnames name (heq ▸ List.mem_append_right _ hname), hmap.symm⟩

/-- The folder of a header goes on from the destination as the folder of the schema goes on from
where it parts from the root. -/
theorem components_outputFolder (hcwd : cwd.isAbsolute = true) (tool : SchemaTool) (file : Path) :
    (tool.outputFolder cwd file).components =
      (tool.destinationFolder.resolveFrom cwd).components ++ tool.branch cwd file := by
  have hfolder := tool.components_folderFrom cwd file
  cases hbelow : (tool.fork cwd file).below? (file.folderFrom cwd) with
  | none => exact absurd ⟨_, hfolder.symm⟩ (Path.below?_eq_none_iff.1 hbelow)
  | some below =>
    have hbranch : below.components = tool.branch cwd file :=
      List.append_cancel_left ((Path.components_below? hbelow).symm.trans hfolder)
    have hout : tool.outputFolder cwd file =
        (tool.destinationFolder.resolveFrom cwd).join below := by
      show Path.join _ (((tool.fork cwd file).below? (file.folderFrom cwd)).getD ⟨""⟩) = _
      rw [hbelow, Option.getD_some]
    have hne : (tool.destinationFolder.resolveFrom cwd).text ≠ "" :=
      Path.text_ne_empty_of_components (by simp [Path.components_resolveFrom hcwd])
    obtain ⟨names, hnames, hmap⟩ := exists_names_branch hcwd tool file
    rw [hout, Path.components_join_of_inner hne, hbranch]
    intro c hc
    rw [hbranch, hmap] at hc
    obtain ⟨name, hname, rfl⟩ := List.mem_map.1 hc
    exact .name (hnames name hname)

/-! ## 2. Folders of headers -/

/-- **Headers mirror the tree of the schemas.** Wherever a schema lies and however its path is
written, its header goes into the destination or below it and the path there never goes up. What it
has below the destination is what the folder of the schema has beyond the root of the schemas, or,
when it is not below that root, beyond the place where the two part. -/
theorem outputFolder_mirrors (hcwd : cwd.isAbsolute = true) (tool : SchemaTool) (file : Path) :
    let folder := (file.parent?.getD ⟨""⟩).resolveFrom cwd
    let root := tool.sourceFolder.resolveFrom cwd
    let destination := tool.destinationFolder.resolveFrom cwd
    let out := tool.outputFolder cwd file
    destination.components <+: out.components ∧ .current ∉ out.components ∧
      .parent ∉ out.components ∧
      out.components =
        destination.components ++ Path.unshared folder.components root.components ∧
      ∀ r, folder.components = root.components ++ r →
        out.components = destination.components ++ r := by
  intro folder root destination out
  have hout : out.components = destination.components ++ tool.branch cwd file :=
    components_outputFolder hcwd tool file
  obtain ⟨names, -, hbranch⟩ := exists_names_branch hcwd tool file
  obtain ⟨-, hdestination⟩ := Path.components_resolveFrom hcwd tool.destinationFolder
  have hnames : out.components =
      .root :: (Path.resolveNames (cwd.join tool.destinationFolder).components ++ names).map
        .name := by
    rw [hout, hdestination, hbranch, List.map_append, List.cons_append]
  refine ⟨⟨_, hout.symm⟩, ?_, ?_, hout, fun r hr => ?_⟩
  · rw [hnames]
    simp
  · rw [hnames]
    simp
  · rw [hout, branch_of_below hr]

end

theorem outputFolder_mirrors_detour :
    let tool := create ⟨"protocols/./net/.."⟩ ⟨"include/../gen"⟩ ⟨"/bin/protoc"⟩ ⟨"/bin/protoc"⟩
    let cwd : Path := ⟨"/repo"⟩
    let file : Path := ⟨"protocols/a//../b/msg.proto"⟩
    let folder := (file.parent?.getD ⟨""⟩).resolveFrom cwd
    let root := tool.sourceFolder.resolveFrom cwd
    let destination := tool.destinationFolder.resolveFrom cwd
    let out := tool.outputFolder cwd file
    cwd.isAbsolute = true ∧
    (destination.components <+: out.components ∧ .current ∉ out.components ∧
      .parent ∉ out.components ∧
      out.components =
        destination.components ++ Path.unshared folder.components root.components ∧
      ∀ r, folder.components = root.components ++ r →
        out.components = destination.components ++ r) ∧
    folder.components = root.components ++ [.name "b"] ∧ out = ⟨"/repo/gen/b"⟩ := by
  intro tool cwd file folder root destination out
  have habsolute : cwd.isAbsolute = true := by decide
  exact ⟨habsolute, outputFolder_mirrors habsolute tool file, by decide +kernel, by decide +kernel⟩

/-! ## 3. Headers that meet -/

theorem outputName_schemaCompile (source : Path) :
    outputName source .schemaCompile = source.fileStem ++ ".pb.h" := rfl

/-- The header of a schema lies in the folder for it and has its stem. -/
theorem output_of_mem_steps {tool : SchemaTool} {cwd executable : Path} {files : List Path}
    {target : Target} {step : Step}
    (h : step ∈ steps executable (files.zip (files.map (tool.outputFolder cwd))) target) :
    step.sourceFile ∈ files ∧
      step.output =
        outputPath step.sourceFile .schemaCompile (tool.outputFolder cwd step.sourceFile) := by
  rw [steps_zip] at h
  obtain ⟨file, hfile, rfl⟩ := List.mem_map.1 h
  exact ⟨hfile, rfl⟩

section

variable {cwd : Path}

/-- Two schemas have one header when their stems and their branches are the same. -/
theorem sameAs_outputPath_iff (hcwd : cwd.isAbsolute = true) (tool : SchemaTool)
    (file other : Path) :
    (outputPath file .schemaCompile (tool.outputFolder cwd file)).sameAs
        (outputPath other .schemaCompile (tool.outputFolder cwd other)) = true ↔
      file.fileStem = other.fileStem ∧ tool.branch cwd file = tool.branch cwd other := by
  have hcomponents (file : Path) :
      (outputPath file .schemaCompile (tool.outputFolder cwd file)).components =
        (tool.destinationFolder.resolveFrom cwd).components ++ tool.branch cwd file ++
          [.name (file.fileStem ++ ".pb.h")] := by
    rw [outputPath, Path.components_join_name (isName_outputName file .schemaCompile),
      components_outputFolder hcwd, outputName_schemaCompile]
  rw [Path.sameAs_iff, hcomponents, hcomponents, List.append_singleton_inj,
    List.append_cancel_left_eq, Path.Component.name.injEq, String.append_left_inj, and_comm]

/-- Schemas that part from the root at one place have one header when they lie in one folder and
have one stem. -/
theorem sameAs_outputPath_iff_folder (hcwd : cwd.isAbsolute = true) {tool : SchemaTool}
    {file other : Path} (hfork : (tool.fork cwd file).sameAs (tool.fork cwd other) = true) :
    (outputPath file .schemaCompile (tool.outputFolder cwd file)).sameAs
        (outputPath other .schemaCompile (tool.outputFolder cwd other)) = true ↔
      (file.folderFrom cwd).sameAs (other.folderFrom cwd) = true ∧
        file.fileStem = other.fileStem := by
  rw [sameAs_outputPath_iff hcwd, Path.sameAs_iff, components_folderFrom tool,
    components_folderFrom tool, Path.sameAs_iff.1 hfork, List.append_cancel_left_eq, and_comm]

theorem exists_extension_of_isSchema {file : Path} (h : isSchema file = true) :
    ∃ extension, file.extension? = some extension := by
  rw [isSchema] at h
  split at h
  · cases h
  · next extension hextension => exact ⟨extension, hextension⟩

/-- Files whose extensions are spelled alike are the same one once they are resolved when they lie
in one folder and have one stem. -/
theorem sameAs_resolveFrom_iff (hcwd : cwd.isAbsolute = true) {file other : Path}
    {extension : String} (h : file.extension? = some extension)
    (h' : other.extension? = some extension) :
    (file.resolveFrom cwd).sameAs (other.resolveFrom cwd) = true ↔
      (file.folderFrom cwd).sameAs (other.folderFrom cwd) = true ∧
        file.fileStem = other.fileStem := by
  rw [Path.sameAs_iff, Path.sameAs_iff,
    Path.components_resolveFrom_file hcwd (Path.fileName?_of_extension? h),
    Path.components_resolveFrom_file hcwd (Path.fileName?_of_extension? h'),
    List.append_singleton_inj, Path.Component.name.injEq, String.append_left_inj,
    String.append_left_inj]

end

/-- When two steps on schemas write one header. -/
structure SharesHeader (tool : SchemaTool) (workingDirectory : Path) (s t : Step) : Prop where
  output_iff : s.output.sameAs t.output = true ↔
    s.sourceFile.fileStem = t.sourceFile.fileStem ∧
      tool.branch workingDirectory s.sourceFile = tool.branch workingDirectory t.sourceFile
  /-- Schemas that part from the root at one place. -/
  of_fork : (tool.fork workingDirectory s.sourceFile).sameAs
      (tool.fork workingDirectory t.sourceFile) = true →
    (s.output.sameAs t.output = true ↔
      (s.sourceFile.folderFrom workingDirectory).sameAs
          (t.sourceFile.folderFrom workingDirectory) = true ∧
        s.sourceFile.fileStem = t.sourceFile.fileStem)
  /-- Such schemas whose extensions are spelled alike. -/
  of_extension : (tool.fork workingDirectory s.sourceFile).sameAs
      (tool.fork workingDirectory t.sourceFile) = true →
    s.sourceFile.extension? = t.sourceFile.extension? →
    (s.output.sameAs t.output = true ↔
      (s.sourceFile.resolveFrom workingDirectory).sameAs
        (t.sourceFile.resolveFrom workingDirectory) = true)

/-- **Headers are shared by stem and branch.** Two of the steps that one collect appends to a
configuration have the same output exactly when their schemas have the same stem and their folders
go on in the same way from where each parts from the root of the schemas. Schemas that part from the
root at one place, as all do that lie below it, therefore have the same output only in one folder,
and if their extensions are spelled alike only when they are one file. -/
theorem collect_shares_headers {tool : SchemaTool} {fs : FileSystem} {project : Project}
    {table : StepTable} (h : (tool.collect fs project).result = .ok table) :
    let cwd := fs.currentPath
    let root := tool.sourceFolder.resolveFrom cwd
    (∃ files, tool.select project = .ok files ∧
      List.Forall₂ (fun conf conf' => ∃ made, conf'.steps = conf.steps ++ made ∧
          made.map Step.job = files.map (.schemaCompile, ·) ∧
          ∀ s ∈ made, ∀ t ∈ made, tool.SharesHeader cwd s t)
        project.configurations (tool.collect fs project).project.configurations) ∧
    ∀ file : Path, root.components <+: (file.folderFrom cwd).components →
      (tool.fork cwd file).sameAs root = true := by
  intro cwd root
  have hcwd : cwd.isAbsolute = true := FileSystem.isAbsolute_currentPath fs
  refine ⟨?_, fun file hbelow => Path.sameAs_iff.2 (fork_of_below hbelow)⟩
  obtain ⟨files, hfiles, hregisters⟩ := registers h
  refine ⟨files, hfiles, hregisters.appends.imp fun conf conf' hconf => ?_⟩
  refine ⟨_, hconf.2, ?_, fun s hs t ht => ?_⟩
  · rw [steps_zip, List.map_map]
    rfl
  · obtain ⟨hsfile, hsout⟩ := output_of_mem_steps hs
    obtain ⟨-, htout⟩ := output_of_mem_steps ht
    have hschema : isSchema s.sourceFile = true :=
      (Project.of_mem_pick (eq_of_select hfiles ▸ hsfile)).2
    obtain ⟨extension, hextension⟩ := exists_extension_of_isSchema hschema
    refine ⟨?_, fun hfork => ?_, fun hfork hsame => ?_⟩
    · rw [hsout, htout, sameAs_outputPath_iff hcwd]
    · rw [hsout, htout, sameAs_outputPath_iff_folder hcwd hfork]
    · rw [hsout, htout, sameAs_outputPath_iff_folder hcwd hfork,
        sameAs_resolveFrom_iff hcwd hextension (hsame ▸ hextension)]

def strayProject : Project :=
  { Project.create "app" ⟨"/repo"⟩ with
    sourceFiles := [⟨"/repo/protocols/other/m.proto"⟩, ⟨"/repo/protocols/other/m.PROTO"⟩,
      ⟨"/other/m.proto"⟩]
    configurations := [Configuration.empty ⟨.win64, .vs2022, .debug⟩] }

theorem collect_shares_headers_stray :
    let tool := create ⟨"/repo/protocols"⟩ ⟨"/repo/gen"⟩ ⟨"/bin/protoc"⟩ ⟨"/bin/protoc"⟩
    let fs : FileSystem := ⟨[], []⟩
    let cwd := fs.currentPath
    let root := tool.sourceFolder.resolveFrom cwd
    (tool.collect fs strayProject).result = .ok ⟨[⟨⟨.win64, .vs2022, .debug⟩, [0, 1, 2]⟩]⟩ ∧
    (∃ files, tool.select strayProject = .ok files ∧
      List.Forall₂ (fun conf conf' => ∃ made, conf'.steps = conf.steps ++ made ∧
          made.map Step.job = files.map (.schemaCompile, ·) ∧
          ∀ s ∈ made, ∀ t ∈ made, tool.SharesHeader cwd s t)
        strayProject.configurations (tool.collect fs strayProject).project.configurations) ∧
    ∀ file : Path, root.components <+: (file.folderFrom cwd).components →
      (tool.fork cwd file).sameAs root = true := by
  intro tool fs cwd root
  have ok : (tool.collect fs strayProject).result =
      .ok ⟨[⟨⟨.win64, .vs2022, .debug⟩, [0, 1, 2]⟩]⟩ := by decide +kernel
  exact ⟨ok, collect_shares_headers ok⟩

/-- The steps on the three schemas write one header. -/
theorem collect_overwrites_stray :
    let tool := create ⟨"/repo/protocols"⟩ ⟨"/repo/gen"⟩ ⟨"/bin/protoc"⟩ ⟨"/bin/protoc"⟩
    let fs : FileSystem := ⟨[], []⟩
    let collected := tool.collect fs strayProject
    collected.result.isOk = true ∧
    ∃ conf ∈ collected.project.configurations,
      conf.steps.map (·.sourceFile) = strayProject.sourceFiles ∧
      (∀ step ∈ conf.steps, step.output = ⟨"/repo/gen/other/m.pb.h"⟩) ∧
      conf.steps.Pairwise fun s t =>
        (s.sourceFile.resolveFrom fs.currentPath).sameAs
          (t.sourceFile.resolveFrom fs.currentPath) = false := by
  decide +kernel

end SchemaTool

end BuildSteps
