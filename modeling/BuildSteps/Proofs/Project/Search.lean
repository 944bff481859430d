import BuildSteps.Proofs.FileSystem.Listing
import BuildSteps.Proofs.Firsts
import BuildSteps.Proofs.Path.Ancestor
import BuildSteps.Proofs.Project.Discovery

/-!
# The search for sources

A search walks all source roots before it changes the project. What it adds to the source files are
the first occurrences of the accepted files, root by root in the order of the walks.
-/

namespace BuildSteps

/-! ## 1. Walks -/

/-- `files` are the regular files below a folder in the order of a walk that goes depth first and
takes the names in each folder in order, which is the order of the names that lead to the files. -/
def FileSystem.Walks (fs : FileSystem) (folder : Path) (files : List Path) : Prop :=
  ∃ (place : Place) (found : List (List String)), fs.find folder = .ok place ∧
    files = found.map folder.withNames ∧ found.Pairwise List.le ∧
    ∀ names, names ∈ found ↔ names ≠ [] ∧ ∃ content, (place ++ names, .file content) ∈ fs.entries

theorem FileSystem.walks_of_isDirectory {fs : FileSystem} {folder : Path}
    (h : fs.isDirectory folder = true) : fs.Walks folder (fs.walkFiles folder) := by
  obtain ⟨node, hlookup, -⟩ := (Option.any_eq_true _ _).1 h
  rw [lookup?] at hlookup
  split at hlookup
  · next place hfind =>
    refine ⟨place, fs.filesBelow place, hfind, ?_, fs.pairwise_filesBelow place, fun names =>
      mem_filesBelow⟩
    rw [walkFiles, hfind]
    rfl
  · cases hlookup

/-! ## 2. Accepted files -/

theorem Path.hasExtension_iff {p : Path} {extensions : List String} :
    p.hasExtension extensions = true ↔
      ∃ extension, p.extension? = some extension ∧ Text.lowercase extension ∈ extensions := by
  rw [hasExtension]
  cases p.extension? <;> simp

namespace Project

/-- Whether a search takes a file: it has one of the extensions of the project, whatever the case of
its letters, and the project does not leave it out by its path below the root or, for a file that is
not below it, by its path. -/
structure Accepts (project : Project) (file : Path) : Prop where
  extension : ∃ extension, file.extension? = some extension ∧
    Text.lowercase extension ∈ project.extensions
  notExcluded : ∀ excluded ∈ project.excludedFiles,
    file.components ≠ project.root.components ++ excluded.components ∧
      (file.components = excluded.components → project.root.components <+: file.components)

variable {project : Project} {fs : FileSystem}

theorem isExcludedFile_eq_false_iff {file : Path} : project.isExcludedFile file = false ↔
    ∀ excluded ∈ project.excludedFiles,
      file.components ≠ project.root.components ++ excluded.components ∧
        (file.components = excluded.components →
          project.root.components <+: file.components) := by
  rw [isExcludedFile, Bool.eq_false_iff, Ne, Path.isIn_iff, not_exists]
  refine forall_congr' fun excluded => ?_
  rw [not_and]
  refine imp_congr_right fun _ => ?_
  cases hbelow : project.root.below? file with
  | none =>
    have houtside := Path.below?_eq_none_iff.1 hbelow
    rw [Option.getD_none]
    refine ⟨fun hne => ⟨fun heq => houtside ⟨_, heq.symm⟩, fun heq => absurd heq hne⟩, ?_⟩
    exact fun h heq => houtside (h.2 heq)
  | some below =>
    have hcomponents := Path.components_below? hbelow
    rw [Option.getD_some, hcomponents, Ne, List.append_cancel_left_eq]
    exact ⟨fun hne => ⟨hne, fun _ => List.prefix_append _ _⟩, And.left⟩

theorem accepts_iff {file : Path} : project.Accepts file ↔
    (file.hasExtension project.extensions && !project.isExcludedFile file) = true := by
  rw [Bool.and_eq_true, Bool.not_eq_true', Path.hasExtension_iff, isExcludedFile_eq_false_iff]
  exact ⟨fun h => ⟨h.extension, h.notExcluded⟩, fun h => ⟨h.1, h.2⟩⟩

instance (file : Path) : Decidable (project.Accepts file) := decidable_of_iff _ accepts_iff.symm

/-! ## 3. Searches -/

theorem acceptedFiles_eq (project : Project) (files : List Path) :
    project.acceptedFiles files = files.filter fun file => project.Accepts file := by
  rw [acceptedFiles]
  refine List.filter_congr fun file _ => ?_
  rw [Bool.eq_iff_iff, decide_eq_true_iff, accepts_iff]

theorem filter_flatMap_acceptedFiles (project : Project) (walk : Path → List Path)
    (roots : List Path) :
    (roots.flatMap fun sourceRoot => project.acceptedFiles (walk sourceRoot)).filter
        (!·.isIn project.sourceFiles) =
      (roots.map walk).flatten.filter fun file =>
        project.Accepts file ∧ file.isIn project.sourceFiles = false := by
  rw [List.flatMap_def, List.filter_flatten, List.filter_flatten, List.map_map, List.map_map]
  congr 1
  refine List.map_congr_left fun sourceRoot _ => ?_
  rw [Function.comp_apply, Function.comp_apply, acceptedFiles_eq, List.filter_filter]
  refine List.filter_congr fun file _ => ?_
  rw [Bool.eq_iff_iff, Bool.and_eq_true, Bool.not_eq_true', decide_eq_true_iff, decide_eq_true_iff,
    and_comm]

/-- **What a search for sources does.** If some source root is no folder, the first such root is
reported and the project stays as it was. Otherwise the search reports by how much the list of
source files has grown, and what stands behind the old ones now are the first occurrences of the
accepted files that were not listed, root by root and in the order of the walks. -/
theorem discoverSources_exact (project : Project) (fs : FileSystem) :
    (∀ before sourceRoot behind, project.sourceRoots = before ++ sourceRoot :: behind →
      (∀ other ∈ before, fs.isDirectory (project.root.join other) = true) →
      fs.isDirectory (project.root.join sourceRoot) = false →
        project.discoverSources fs =
          (.error (.sourceRootNotFound (project.root.join sourceRoot)), project)) ∧
    ((∀ sourceRoot ∈ project.sourceRoots,
        fs.isDirectory (project.root.join sourceRoot) = true) →
      ∃ walks added,
        List.Forall₂ (fun sourceRoot files => fs.Walks (project.root.join sourceRoot) files)
          project.sourceRoots walks ∧
        List.FirstsBy Path.components
          (walks.flatten.filter fun file =>
            project.Accepts file ∧ file.isIn project.sourceFiles = false) added ∧
        project.discoverSources fs = (.ok added.length,
          { project with sourceFiles := project.sourceFiles ++ added, discovered := true })) := by
  constructor
  · intro before sourceRoot behind hroots hbefore hmissing
    have hfind : project.sourceRoots.find? (fun sourceRoot =>
        !fs.isDirectory (project.root.join sourceRoot)) = some sourceRoot := by
      rw [List.find?_eq_some_iff_append]
      refine ⟨by rw [hmissing]; rfl, before, behind, hroots, fun other hother => ?_⟩
      rw [hbefore other hother]
      rfl
    rw [discoverSources, discover_eq, hfind]
  · intro hfolders
    have hfind : project.sourceRoots.find? (fun sourceRoot =>
        !fs.isDirectory (project.root.join sourceRoot)) = none :=
      List.find?_eq_none.2 fun sourceRoot hroot => by rw [hfolders sourceRoot hroot]; decide
    let walks := project.sourceRoots.map fun sourceRoot =>
      fs.walkFiles (project.root.join sourceRoot)
    let news := walks.flatten.filter fun file =>
      project.Accepts file ∧ file.isIn project.sourceFiles = false
    refine ⟨walks, Path.insertAllLast [] news, ?_, Path.firstsBy_insertAllLast news, ?_⟩
    · rw [List.forall₂_map_right_iff, List.forall₂_same]
      exact fun sourceRoot hroot => FileSystem.walks_of_isDirectory (hfolders sourceRoot hroot)
    · rw [discoverSources, discover_eq, hfind, Path.insertAllLast_eq, filter_flatMap_acceptedFiles,
        ← Path.insertAllLast_nil]
      simp only [List.length_append, Nat.add_sub_cancel_left]
      rfl

def overlappingProject : Project :=
  { Project.create "app" ⟨"/app"⟩ with
    sourceRoots := [⟨"src"⟩, ⟨""⟩, ⟨"/app/src"⟩]
    excludedFiles := [⟨"src/old.cpp"⟩]
    sourceFiles := [⟨"/app//src/view.h"⟩] }

def overlappingFiles : FileSystem where
  workingDirectory := []
  entries := [["app"], ["app", "src"], ["app", "src", "net"]].map (·, .directory) ++
    [["app", "main.cc"], ["app", "readme.txt"], ["app", "src", "view.h"],
      ["app", "src", "old.cpp"], ["app", "src", "net", "link.h"], ["app", "src", "core.CPP"]].map
      (·, .file [])

theorem discoverSources_exact_overlapping :
    let project := overlappingProject
    let fs := overlappingFiles
    let incomplete := { project with sourceRoots := [⟨"src"⟩, ⟨"lib"⟩, ⟨"test"⟩] }
    (∀ sourceRoot ∈ project.sourceRoots,
      fs.isDirectory (project.root.join sourceRoot) = true) ∧
    (∃ walks added,
      List.Forall₂ (fun sourceRoot files => fs.Walks (project.root.join sourceRoot) files)
        project.sourceRoots walks ∧
      List.FirstsBy Path.components
        (walks.flatten.filter fun file =>
          project.Accepts file ∧ file.isIn project.sourceFiles = false) added ∧
      project.discoverSources fs = (.ok added.length,
        { project with sourceFiles := project.sourceFiles ++ added, discovered := true })) ∧
    (project.discoverSources fs).1 = .ok 3 ∧
    (project.discoverSources fs).2.sourceFiles = [⟨"/app//src/view.h"⟩, ⟨"/app/src/core.CPP"⟩,
      ⟨"/app/src/net/link.h"⟩, ⟨"/app/main.cc"⟩] ∧
    incomplete.discoverSources fs =
      (.error (.sourceRootNotFound (incomplete.root.join ⟨"lib"⟩)), incomplete) := by
  intro project fs incomplete
  have folders : ∀ sourceRoot ∈ project.sourceRoots,
      fs.isDirectory (project.root.join sourceRoot) = true := by decide +kernel
  have first : ∀ other ∈ [(⟨"src"⟩ : Path)],
      fs.isDirectory (incomplete.root.join other) = true := by decide +kernel
  have missing : fs.isDirectory (incomplete.root.join ⟨"lib"⟩) = false := by decide +kernel
  exact ⟨folders, (discoverSources_exact project fs).2 folders, by decide +kernel,
    by decide +kernel,
    (discoverSources_exact incomplete fs).1 [⟨"src"⟩] ⟨"lib"⟩ [⟨"test"⟩] rfl first missing⟩

end Project

end BuildSteps
