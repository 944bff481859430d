import BuildSteps.Proofs.FileSystem.Listing
import BuildSteps.Proofs.Project.Discovery
import BuildSteps.Proofs.Tool.Additions

/-!
# Discovery after a generation

A second discovery may meet placeholders that were not there at the first. All other source files
are found again, in the same order.
-/

namespace BuildSteps

namespace Path

/-! ## 1. Placeholders among source files -/

def isInline (p : Path) : Bool := Text.endsWith p.fileName ".inl"

theorem isInline_join {name : String} (h : IsInlineName name) (folder : Path) :
    (folder.join ⟨name⟩).isInline = true := by
  rw [isInline, fileName, fileName?_join_name h.isName]
  exact h.ending

theorem isInline_eq_of_sameAs {p q : Path} (h : p.sameAs q = true) : p.isInline = q.isInline := by
  rw [isInline, isInline, fileName, fileName, fileName?, fileName?, sameAs_iff.1 h]

theorem isIn_filter {test : Path → Bool} (h : ∀ p q, p.sameAs q = true → test p = test q) {p : Path}
    (hp : test p = true) (paths : List Path) : p.isIn (paths.filter test) = p.isIn paths := by
  rw [isIn, isIn, List.any_filter]
  congr 1
  funext q
  cases hsame : p.sameAs q with
  | false => exact Bool.and_false _
  | true => rw [← h p q hsame, hp, Bool.true_and]

theorem filter_insertLast {test : Path → Bool} (h : ∀ p q, p.sameAs q = true → test p = test q)
    (paths : List Path) (p : Path) : (insertLast paths p).filter test =
      if test p then insertLast (paths.filter test) p else paths.filter test := by
  rw [insertLast]
  by_cases hp : test p = true
  · rw [if_pos hp, insertLast, isIn_filter h hp]
    split
    · rfl
    · rw [List.filter_append, List.filter_cons_of_pos hp, List.filter_nil]
  · rw [if_neg hp]
    split
    · rfl
    · rw [List.filter_append, List.filter_cons_of_neg hp, List.filter_nil, List.append_nil]

/-- Where a test treats the same paths alike, it makes no difference whether it comes before or after
paths are added. -/
theorem filter_insertAllLast {test : Path → Bool}
    (h : ∀ p q, p.sameAs q = true → test p = test q) (paths added : List Path) :
    (insertAllLast paths added).filter test =
      insertAllLast (paths.filter test) (added.filter test) := by
  induction added generalizing paths with
  | nil => rfl
  | cons p added ih =>
    show (insertAllLast (insertLast paths p) added).filter test = _
    rw [ih, filter_insertLast h]
    split
    · next hp => rw [List.filter_cons_of_pos hp]; rfl
    · next hp => rw [List.filter_cons_of_neg hp]

end Path

/-! ## 2. Projects -/

/-- The source files of a project that are not named like placeholders. -/
def Project.lasting (project : Project) : List Path :=
  project.sourceFiles.filter fun file => !file.isInline

namespace Project

variable {project found : Project} {fs fs' : FileSystem}

/-- What lasts among the accepted files of a walk is the same after a generation. -/
theorem lasting_acceptedFiles (h : FileSystem.Extends Path.IsInlineName fs fs') {folder : Path}
    (hfolder : fs.isDirectory folder = true) :
    (project.acceptedFiles (fs'.walkFiles folder)).filter (!·.isInline) =
      (project.acceptedFiles (fs.walkFiles folder)).filter (!·.isInline) := by
  have hwalk : (fs'.walkFiles folder).filter (!·.isInline) =
      (fs.walkFiles folder).filter (!·.isInline) := by
    refine h.filter_walkFiles hfolder fun p name hname => ?_
    rw [Path.isInline_join hname]
    rfl
  -- what is accepted does not depend on the file system
  rw [acceptedFiles, acceptedFiles, List.filter_comm, hwalk, List.filter_comm]

/-- Where a discovery has succeeded, one after a generation succeeds too. -/
theorem discover_again (h : FileSystem.Extends Path.IsInlineName fs fs')
    (hdiscover : project.discover fs = .ok found) :
    ∃ found', project.discover fs' = .ok found' ∧
      found' = { found with sourceFiles := found'.sourceFiles } ∧
      found'.lasting = found.lasting := by
  rw [discover_eq] at hdiscover
  split at hdiscover
  · cases hdiscover
  · next hnone =>
    obtain rfl := Except.ok.inj hdiscover
    have hfolders : ∀ sourceRoot ∈ project.sourceRoots,
        fs.isDirectory (project.root.join sourceRoot) = true := by
      simpa using hnone
    have hnone' : project.sourceRoots.find? (fun sourceRoot =>
        !fs'.isDirectory (project.root.join sourceRoot)) = none := by
      simpa using fun sourceRoot hroot => h.grows.isDirectory (hfolders sourceRoot hroot)
    refine ⟨_, by rw [discover_eq, hnone'], rfl, ?_⟩
    have hrespects : ∀ p q : Path, p.sameAs q = true → (!p.isInline) = !q.isInline :=
      fun p q hpq => congrArg (!·) (Path.isInline_eq_of_sameAs hpq)
    show List.filter _ (Path.insertAllLast _ _) = List.filter _ (Path.insertAllLast _ _)
    rw [Path.filter_insertAllLast hrespects, Path.filter_insertAllLast hrespects,
      List.filter_flatMap, List.filter_flatMap]
    congr 1
    exact List.flatMap_congr fun sourceRoot hroot =>
      lasting_acceptedFiles h (hfolders sourceRoot hroot)

end Project

end BuildSteps
