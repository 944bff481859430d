import BuildSteps.Proofs.FileSystem.Tree
import BuildSteps.Proofs.Tool.Classification
import BuildSteps.Proofs.Tool.Registration

/-!
# What discovery finds

The source files of a project that lists none are files that a walk of one of its source roots has
met. In a tree one walk lists every file once, and nothing that is the same path as another one.
-/

namespace BuildSteps

/-! ## 1. Source roots -/

namespace Project

variable {project found : Project} {fs : FileSystem}

/-- A search of source roots ends at the first that is no folder. -/
theorem findSources_eq (project : Project) (fs : FileSystem) (roots : List Path) :
    project.findSources fs roots =
      match roots.find? fun sourceRoot => !fs.isDirectory (project.root.join sourceRoot) with
      | some sourceRoot => .error (.sourceRootNotFound (project.root.join sourceRoot))
      | none => .ok (roots.flatMap fun sourceRoot =>
          project.acceptedFiles (fs.walkFiles (project.root.join sourceRoot))) := by
  induction roots with
  | nil => rfl
  | cons sourceRoot roots ih =>
    rw [findSources]
    by_cases hfolder : fs.isDirectory (project.root.join sourceRoot) = true
    · rw [if_pos hfolder, ih, List.find?_cons_of_neg (by simpa using hfolder)]
      cases roots.find? _ with
      | none => rfl
      | some missing => rfl
    · rw [if_neg hfolder, List.find?_cons_of_pos (by simpa using hfolder)]

theorem discover_eq (project : Project) (fs : FileSystem) :
    project.discover fs =
      match project.sourceRoots.find? fun sourceRoot =>
          !fs.isDirectory (project.root.join sourceRoot) with
      | some sourceRoot => .error (.sourceRootNotFound (project.root.join sourceRoot))
      | none => .ok { project with
          sourceFiles := Path.insertAllLast project.sourceFiles
            (project.sourceRoots.flatMap fun sourceRoot =>
              project.acceptedFiles (fs.walkFiles (project.root.join sourceRoot)))
          discovered := true } := by
  rw [discover, findSources_eq]
  cases project.sourceRoots.find? _ with
  | some missing => rfl
  | none =>
    have hsame := project.sourceFiles_addSourceFiles (project.sourceRoots.flatMap fun sourceRoot =>
      project.acceptedFiles (fs.walkFiles (project.root.join sourceRoot)))
    obtain ⟨sources, hsources⟩ := project.addSourceFiles_frame
      (project.sourceRoots.flatMap fun sourceRoot =>
        project.acceptedFiles (fs.walkFiles (project.root.join sourceRoot)))
    rw [hsources] at hsame
    simp only [hsources, ← hsame]

theorem eq_of_discover (h : project.discover fs = .ok found) :
    found = { project with
      sourceFiles := Path.insertAllLast project.sourceFiles
        (project.sourceRoots.flatMap fun sourceRoot =>
          project.acceptedFiles (fs.walkFiles (project.root.join sourceRoot)))
      discovered := true } := by
  rw [discover_eq] at h
  split at h
  · cases h
  · exact (Except.ok.inj h).symm

/-- Each source file of a project that lists none was met by a walk of a source root. -/
theorem exists_walk_of_discover (fresh : project.sourceFiles = [])
    (h : project.discover fs = .ok found) {file : Path} (hfile : file ∈ found.sourceFiles) :
    ∃ sourceRoot ∈ project.sourceRoots,
      file ∈ fs.walkFiles (project.root.join sourceRoot) := by
  rw [eq_of_discover h, fresh, Path.insertAllLast_nil] at hfile
  obtain ⟨sourceRoot, hroot, haccepted⟩ :=
    List.mem_flatMap.1 ((List.eraseDupsBy_sublist _ _).mem hfile)
  exact ⟨sourceRoot, hroot, List.mem_of_mem_filter haccepted⟩

/-- What a discovery in a tree has found reads the same however the file system grows. -/
theorem read_of_discover (tree : fs.IsTree) (fresh : project.sourceFiles = [])
    (h : project.discover fs = .ok found) {fs' : FileSystem} (hgrows : fs.Grows fs') {file : Path}
    (hfile : file ∈ found.sourceFiles) : fs'.read file = fs.read file := by
  obtain ⟨_, -, hwalk⟩ := exists_walk_of_discover fresh h hfile
  exact hgrows.read_of_mem_walkFiles tree hwalk

end Project

/-! ## 2. One walk of a tree -/

/-- Files of one walk are the same path only if they are written alike. -/
theorem FileSystem.IsTree.eq_of_sameAs {fs : FileSystem} (tree : fs.IsTree) {folder p q : Path}
    (hp : p ∈ fs.walkFiles folder) (hq : q ∈ fs.walkFiles folder) (h : p.sameAs q = true) :
    p = q := by
  obtain ⟨place, names, hplace, hnames, rfl⟩ := mem_walkFiles.1 hp
  obtain ⟨place', names', hplace', hnames', rfl⟩ := mem_walkFiles.1 hq
  obtain rfl := Except.ok.inj (hplace.symm.trans hplace')
  obtain ⟨-, _, hentry⟩ := mem_filesBelow.1 hnames
  obtain ⟨-, _, hentry'⟩ := mem_filesBelow.1 hnames'
  rw [Path.sameAs_iff, Path.components_withNames (tree.names_of_mem hentry),
    Path.components_withNames (tree.names_of_mem hentry')] at h
  have hinjective : Function.Injective Path.Component.name := fun _ _ => Path.Component.name.inj
  rw [List.map_injective_iff.2 hinjective (List.append_cancel_left h)]

namespace Project

variable {project found : Project} {fs : FileSystem}

/-- Where same paths are written alike, picking drops nothing but what is not wanted. -/
theorem mem_pick_iff {toolPatterns : List String} {wanted : Path → Bool}
    (distinct : ∀ p ∈ project.sourceFiles, ∀ q ∈ project.sourceFiles, p.sameAs q = true → p = q)
    {file : Path} : file ∈ project.pick toolPatterns wanted ↔
      file ∈ project.sourceFiles ∧ project.leavesOut toolPatterns file = false ∧
        wanted file = true := by
  rw [pick, List.mem_eraseDupsBy, List.mem_filter, Bool.and_eq_true, Bool.not_eq_true']
  exact fun p hp q hq => distinct p (List.mem_of_mem_filter hp) q (List.mem_of_mem_filter hq)

/-- A project that looks in one place finds all files there with one of its extensions, except those
that it leaves out by name. -/
theorem mem_sourceFiles_of_discover (tree : fs.IsTree) (fresh : project.sourceFiles = [])
    {sourceRoot : Path} (single : project.sourceRoots = [sourceRoot])
    (h : project.discover fs = .ok found) {file : Path} :
    file ∈ found.sourceFiles ↔ file ∈ fs.walkFiles (project.root.join sourceRoot) ∧
      file.hasExtension project.extensions = true ∧ project.isExcludedFile file = false := by
  have hdistinct : ∀ p ∈ project.acceptedFiles (fs.walkFiles (project.root.join sourceRoot)),
      ∀ q ∈ project.acceptedFiles (fs.walkFiles (project.root.join sourceRoot)),
        p.sameAs q = true → p = q := fun p hp q hq =>
    tree.eq_of_sameAs (List.mem_of_mem_filter hp) (List.mem_of_mem_filter hq)
  rw [eq_of_discover h, fresh, single, List.flatMap_singleton, Path.insertAllLast_nil,
    List.mem_eraseDupsBy hdistinct, acceptedFiles, List.mem_filter, Bool.and_eq_true,
    Bool.not_eq_true']

end Project

end BuildSteps
