import BuildSteps.Proofs.Dependency.Resolution
import BuildSteps.Proofs.Tool.Registration

/-!
# The source files of a project in the course of time

A project is given settings and source files, looks for more, has tools collect and finalize, and is
resolved among other projects, in any order. Except for what gives it a new list, all that happens to
it, also where it fails, adds source files behind those it has, and none of them twice.
-/

namespace BuildSteps

/-! ## 1. Lists of different paths -/

namespace Path

def AllDifferent (paths : List Path) : Prop :=
  paths.Pairwise fun p q => p.components ≠ q.components

theorem prefix_insertAllLast (paths added : List Path) : paths <+: insertAllLast paths added := by
  rw [insertAllLast_eq]
  exact List.prefix_append _ _

theorem AllDifferent.insertAllLast {paths : List Path} (h : AllDifferent paths)
    (added : List Path) : AllDifferent (insertAllLast paths added) := by
  rw [insertAllLast_eq]
  refine List.pairwise_append.2 ⟨h, ?_, fun p hp q hq hsame => ?_⟩
  · refine (List.pairwise_eraseDupsBy sameAs _).imp fun {p q} hdifferent hsame => ?_
    rw [sameAs_iff.2 hsame.symm] at hdifferent
    cases hdifferent
  -- a path that is added is not in the list
  · have hnew := (List.mem_filter.1 ((List.eraseDupsBy_sublist _ _).mem hq)).2
    rw [isIn_iff.2 ⟨p, hp, hsame.symm⟩] at hnew
    cases hnew

end Path

/-! ## 2. Growing -/

namespace Project

/-- Whether the second project has the source files of the first and, behind them, others that are
new. -/
def Grows (project project' : Project) : Prop :=
  ∃ added, project'.sourceFiles = Path.insertAllLast project.sourceFiles added

namespace Grows

variable {project project' project'' : Project}

theorem of_eq (h : project'.sourceFiles = project.sourceFiles) : Grows project project' := ⟨[], h⟩

theorem trans (h : Grows project project') (h' : Grows project' project'') :
    Grows project project'' := by
  obtain ⟨added, hadded⟩ := h
  obtain ⟨more, hmore⟩ := h'
  refine ⟨added ++ more, ?_⟩
  rw [hmore, hadded, Path.insertAllLast, Path.insertAllLast, Path.insertAllLast, List.foldl_append]

theorem prefix_sourceFiles (h : Grows project project') :
    project.sourceFiles <+: project'.sourceFiles := by
  obtain ⟨added, hadded⟩ := h
  rw [hadded]
  exact Path.prefix_insertAllLast _ _

theorem allDifferent (h : Grows project project') (hdifferent : Path.AllDifferent project.sourceFiles) :
    Path.AllDifferent project'.sourceFiles := by
  obtain ⟨added, hadded⟩ := h
  rw [hadded]
  exact hdifferent.insertAllLast added

end Grows

theorem grows_addSourceFiles (project : Project) (files : List Path) :
    Grows project (project.addSourceFiles files) :=
  ⟨files, project.sourceFiles_addSourceFiles files⟩

theorem grows_discover {project found : Project} {fs : FileSystem}
    (h : project.discover fs = .ok found) : Grows project found := by
  rw [discover] at h
  split at h
  · cases h
  · next files _ =>
    obtain rfl := Except.ok.inj h
    exact project.grows_addSourceFiles files

end Project

/-! ## 3. Tools -/

theorem QtTool.grows_collect (tool : QtTool) (fs : FileSystem) (project : Project) :
    project.Grows (tool.collect fs project).project := by
  rw [collect]
  split
  · exact .of_eq rfl
  · split
    · exact .of_eq rfl
    · exact Project.grows_addSourceFiles { project with configurations := _ } _

theorem SchemaTool.grows_collect (tool : SchemaTool) (fs : FileSystem) (project : Project) :
    project.Grows (tool.collect fs project).project := by
  rw [collect]
  split
  · exact .of_eq rfl
  · split
    · exact .of_eq rfl
    · simp only
      split
      · exact .of_eq rfl
      · split
        -- a folder could not be created
        · exact .of_eq rfl
        · exact Project.grows_addSourceFiles { project with configurations := _ } _

theorem Tool.grows_collect (tool : Tool) (fs : FileSystem) (project : Project) :
    project.Grows (tool.collect fs project).project := by
  cases tool with
  | qt tool => exact tool.grows_collect fs project
  | schema tool => exact tool.grows_collect fs project

theorem Finalization.sourceFiles_finalizeEntries (additional : List AdditionalDefinition)
    (updated : Nat) (project : Project) (entries : List StepTable.Entry) :
    (finalizeEntries additional updated project entries).2.sourceFiles = project.sourceFiles := by
  induction entries generalizing updated project with
  | nil => rfl
  | cons entry entries ih =>
    rw [finalizeEntries]
    split
    · rfl
    · split
      · rw [ih, Project.alterConfiguration]
      · rfl

theorem Tool.sourceFiles_finalize (tool : Tool) (table : StepTable) (project : Project) :
    (tool.finalize table project).2.sourceFiles = project.sourceFiles := by
  have hentries :=
    Finalization.sourceFiles_finalizeEntries tool.additional 0 project table.entries
  rw [finalize, finalizeSteps]
  split
  · next hresult => rwa [hresult] at hentries
  · next hresult => rwa [hresult] at hentries

/-! ## 4. Resolution -/

namespace Resolution

theorem sourceFiles_resolveProject (projects : List Project) (i : Nat) :
    (resolveProject projects i).2.map (·.sourceFiles) = projects.map (·.sourceFiles) := by
  cases hproject : projects[i]? with
  | none => rw [resolveProject, hproject]
  | some project =>
    obtain ⟨hlt, rfl⟩ := List.getElem?_eq_some_iff.1 hproject
    rw [resolveProject_eq hproject, List.map_set]
    refine Eq.trans ?_ (List.set_getElem_self (by rwa [List.length_map]))
    rw [List.getElem_map]

/-- Resolution, as far as it comes, leaves all source files as they are. -/
theorem sourceFiles_resolveAll (names : List String) (projects : List Project) :
    (resolveAll names projects).2.map (·.sourceFiles) = projects.map (·.sourceFiles) := by
  induction names generalizing projects with
  | nil => rfl
  | cons name names ih =>
    rw [resolveAll]
    split
    · exact ih projects
    · next i _ =>
      have hproject := sourceFiles_resolveProject projects i
      split
      · next hstep => rwa [hstep] at hproject
      · next between hstep =>
        rw [hstep] at hproject
        exact (ih between).trans hproject

theorem sourceFiles_resolveDependencies (projects : List Project) :
    (resolveDependencies projects).2.map (·.sourceFiles) = projects.map (·.sourceFiles) := by
  rw [resolveDependencies]
  split
  · rfl
  · split
    · rfl
    · exact sourceFiles_resolveAll _ projects

end Resolution

/-! ## 5. Runs -/

namespace Project

/-- What can happen to a project. The file system may be another one each time. -/
inductive Operation where
  /-- The project gets all settings of another one, which are all but the source files. -/
  | configure (settings : Project)
  /-- The project gets its source files in place of those it has. -/
  | give (files : List Path)
  | add (file : Path)
  | discover (fs : FileSystem)
  | collect (tool : Tool) (fs : FileSystem)
  /-- The project is resolved among others. -/
  | resolve (before after : List Project)
  | finalize (tool : Tool) (table : StepTable)

namespace Operation

def apply (project : Project) : Operation → Project
  | configure settings =>
    { settings with sourceFiles := project.sourceFiles, discovered := project.discovered }
  | give files => project.setSourceFiles files
  | add file => project.addSourceFile file
  | discover fs =>
    match project.discover fs with
    | .ok found => found
    | .error _ => project
  | collect tool fs => (tool.collect fs project).project
  | resolve before after =>
    ((resolveDependencies (before ++ project :: after)).2[before.length]?).getD project
  | finalize tool table => (tool.finalize table project).2

def replaces : Operation → Bool
  | give _ => true
  | _ => false

theorem grows_apply {operation : Operation} (h : operation.replaces = false) (project : Project) :
    project.Grows (operation.apply project) := by
  cases operation with
  | configure settings => exact .of_eq rfl
  | give files => cases h
  | add file => exact ⟨[file], rfl⟩
  | discover fs =>
    rw [apply]
    split
    · next hfound => exact grows_discover hfound
    · exact .of_eq rfl
  | collect tool fs => exact tool.grows_collect fs project
  | resolve before after =>
    refine .of_eq ?_
    rw [apply]
    -- the project stands where it stood
    have hfiles := congrArg (·[before.length]?)
      (Resolution.sourceFiles_resolveDependencies (before ++ project :: after))
    simp only [List.getElem?_map, List.getElem?_append_right (Nat.le_refl _), Nat.sub_self,
      List.getElem?_cons_zero, Option.map_some] at hfiles
    obtain ⟨resolved, hresolved, hsame⟩ := Option.map_eq_some_iff.1 hfiles
    rw [hresolved]
    exact hsame
  | finalize tool table => exact .of_eq (tool.sourceFiles_finalize table project)

/-- No operation, whatever its outcome, lists a source file twice. -/
theorem allDifferent_apply (operation : Operation) {project : Project}
    (h : Path.AllDifferent project.sourceFiles) :
    Path.AllDifferent (operation.apply project).sourceFiles := by
  cases hreplaces : operation.replaces with
  | false => exact (grows_apply hreplaces project).allDifferent h
  | true =>
    cases operation with
    -- a list that is given is added to the empty one
    | give files =>
      exact (grows_addSourceFiles { project with sourceFiles := [] } files).allDifferent .nil
    | _ => cases hreplaces

end Operation

def run (operations : List Operation) (project : Project) : Project :=
  operations.foldl Operation.apply project

theorem allDifferent_run (operations : List Operation) {project : Project}
    (h : Path.AllDifferent project.sourceFiles) :
    Path.AllDifferent (run operations project).sourceFiles := by
  induction operations generalizing project with
  | nil => exact h
  | cons operation operations ih => exact ih (operation.allDifferent_apply h)

theorem grows_run {operations : List Operation}
    (h : ∀ operation ∈ operations, operation.replaces = false) (project : Project) :
    project.Grows (run operations project) := by
  induction operations generalizing project with
  | nil => exact .of_eq rfl
  | cons operation operations ih =>
    obtain ⟨hfirst, hrest⟩ := List.forall_mem_cons.1 h
    exact (Operation.grows_apply hfirst project).trans (ih hrest _)

/-- **Source files are kept.** Whatever happens to a project after it was created, it lists no two
source files that are the same path. As long as it is not given a new list, the source files that it
has stay in front, in their order. -/
theorem sourceFiles_run (name : String) (root : Path) (past future : List Operation) :
    let project := run past (create name root)
    Path.AllDifferent project.sourceFiles ∧
      ((∀ operation ∈ future, operation.replaces = false) →
        project.sourceFiles <+: (run future project).sourceFiles) :=
  ⟨allDifferent_run past .nil, fun h => (grows_run h _).prefix_sourceFiles⟩

def editedFiles : FileSystem where
  workingDirectory := []
  entries := (["app"], .directory) :: ["view.cpp", "widget.h"].map fun name =>
    (["app", name], .file [0x51, 0x5F, 0x4F, 0x42, 0x4A, 0x45, 0x43, 0x54])

theorem sourceFiles_run_edited :
    let tool := Tool.qt (.create ⟨"/qt"⟩ ⟨"/app/moc"⟩)
    let settings := { create "app" ⟨"/app"⟩ with
      configurations := [.empty ⟨.win64, .vs2022, .debug⟩] }
    let past := [.configure settings, .give [⟨"/app/widget.h"⟩, ⟨"/app/./widget.h"⟩],
      .discover editedFiles]
    let future := [.add ⟨"/app//view.cpp"⟩, .collect tool editedFiles, .resolve [] [],
      .finalize tool .empty, .collect tool editedFiles]
    let project := run past (create "app" ⟨"/app"⟩)
    project.sourceFiles = [⟨"/app/widget.h"⟩, ⟨"/app/view.cpp"⟩] ∧
      (run future project).sourceFiles = [⟨"/app/widget.h"⟩, ⟨"/app/view.cpp"⟩,
        ⟨"/app/moc/moc_widget.cpp"⟩, ⟨"/app/moc/view.moc"⟩, ⟨"/app/moc/view.inl"⟩] ∧
      Path.AllDifferent project.sourceFiles ∧
      (∀ operation ∈ future, Operation.replaces operation = false) ∧
      project.sourceFiles <+: (run future project).sourceFiles := by
  intro tool settings past future project
  have keeps : ∀ operation ∈ future, operation.replaces = false := by decide
  obtain ⟨different, kept⟩ := sourceFiles_run "app" ⟨"/app"⟩ past future
  exact ⟨by decide +kernel, by decide +kernel, different, keeps, kept keeps⟩

end Project

end BuildSteps
