import BuildSteps.Proofs.Placeholder
import BuildSteps.Proofs.Tool.Generated
import BuildSteps.Solution

/-!
# What tools add to a file system

The Qt tool creates placeholders with the folder they stand in, and the tool for schemas creates
folders. Whatever else there is after a generation was there before it.
-/

namespace BuildSteps

open FileSystem

/-! ## 1. Placeholders -/

structure Path.IsInlineName (name : String) : Prop where
  isName : IsName name
  ending : Text.endsWith name ".inl" = true

theorem Path.isInlineName_placeholder (source : Path) :
    IsInlineName (source.fileStem ++ ".inl") where
  isName := isName_placeholder source
  ending := by
    rw [Text.endsWith, String.toList_append, List.isSuffixOf_iff_suffix]
    exact List.suffix_append _ _

theorem Placeholder.extends_ensure (fs : FileSystem) (source folder : Path) {name : String}
    (h : Path.IsInlineName name) :
    Extends Path.IsInlineName fs (ensure fs source (folder.join ⟨name⟩)).2 := by
  have hfolders {between : FileSystem} (hwith : WithFolders fs (folder.join ⟨name⟩) between) :
      Extends Path.IsInlineName fs between := by
    cases hwith with
    | unwanted => exact .refl fs
    | wanted _ => exact extends_makeDirectories Path.IsInlineName fs _
  have hensured := ensured fs source (folder.join ⟨name⟩)
  generalize ensure fs source (folder.join ⟨name⟩) = answer at hensured ⊢
  cases hensured with
  | existing _ => exact .refl fs
  | abandoned _ hwith _ => exact hfolders hwith
  | created _ hwith written =>
    refine (hfolders hwith).trans (extends_writeNew written fun front last hpieces => ?_)
    obtain ⟨front', hpieces', -⟩ := Path.pieces_join_name h.isName folder
    obtain ⟨-, hlast⟩ := List.append_inj' (hpieces.symm.trans hpieces') rfl
    rwa [(List.cons.inj hlast).1]

namespace QtTool

variable {tool : QtTool} {sources : QtSources}

theorem exists_step_of_mem_placeholders {confs : List Configuration}
    {steps : Configuration → List Step} {pair : Path × Path} (h : pair ∈ placeholders confs steps) :
    ∃ conf ∈ confs, ∃ step ∈ steps conf, step.intermediateFile = some pair.2 := by
  rw [placeholders, List.foldl_append_unless fun pair q : Path × Path =>
    q.1.sameAs pair.1 && q.2.sameAs pair.2, List.nil_append] at h
  have hmem := List.mem_of_mem_filter ((List.eraseDupsBy_sublist _ _).mem h)
  obtain ⟨conf, hconf, hsteps⟩ := List.mem_flatMap.1 hmem
  obtain ⟨step, hstep, hpair⟩ := List.mem_filterMap.1 hsteps
  obtain ⟨placeholder, hplaceholder, rfl⟩ := Option.map_eq_some_iff.1 hpair
  exact ⟨conf, hconf, step, hstep, hplaceholder⟩

theorem extends_ensureAll (fs : FileSystem) {pairs : List (Path × Path)}
    (h : ∀ pair ∈ pairs, ∃ folder name, pair.2 = Path.join folder ⟨name⟩ ∧ Path.IsInlineName name) :
    Extends Path.IsInlineName fs (ensureAll fs pairs) := by
  induction pairs generalizing fs with
  | nil => exact .refl fs
  | cons pair pairs ih =>
    obtain ⟨⟨folder, name, hpair, hname⟩, hrest⟩ := List.forall_mem_cons.1 h
    have hfirst := Placeholder.extends_ensure fs pair.1 folder hname
    rw [← hpair] at hfirst
    exact hfirst.trans (ih _ hrest)

end QtTool

/-! ## 2. Tools -/

theorem SchemaTool.extends_createFolders (names : String → Prop) (fs : FileSystem)
    (folders : List Path) : Extends names fs (createFolders fs folders).2 := by
  induction folders generalizing fs with
  | nil => exact .refl fs
  | cons folder folders ih =>
    rw [createFolders]
    split
    · exact ih fs
    · have hfolder := extends_makeDirectories names fs folder
      split
      · next made hmade => rwa [hmade] at hfolder
      · next made hmade =>
        rw [hmade] at hfolder
        exact hfolder.trans (ih made)

theorem Tool.extends_collect (tool : Tool) (fs : FileSystem) (project : Project) :
    Extends Path.IsInlineName fs (tool.collect fs project).files := by
  cases tool with
  | qt tool =>
    rw [collect, QtTool.collect]
    split
    · exact .refl fs
    · split
      · exact .refl fs
      · next sources _ _ _ =>
        show Extends _ fs (if _ then _ else _)
        split
        · refine QtTool.extends_ensureAll fs fun pair hpair => ?_
          obtain ⟨conf, -, step, hstep, hplaceholder⟩ :=
            QtTool.exists_step_of_mem_placeholders hpair
          exact ⟨_, _, QtTool.placeholder_of_mem_steps hstep hplaceholder,
            Path.isInlineName_placeholder step.sourceFile⟩
        · exact .refl fs
  | schema tool =>
    rw [collect, SchemaTool.collect]
    split
    · exact .refl fs
    · next files _ =>
      split
      · exact .refl fs
      · by_cases hempty : files.isEmpty = true
        · simp only [if_pos hempty]
          exact .refl fs
        · simp only [if_neg hempty]
          have hfolders := SchemaTool.extends_createFolders Path.IsInlineName fs
            (files.map (tool.outputFolder fs.currentPath))
          split
          · next made hmade => rwa [hmade] at hfolders
          · next made hmade => rwa [hmade] at hfolders

/-! ## 3. Solutions -/

namespace Solution

theorem extends_collectTools (fs : FileSystem) (project : Project) (tools : List Tool) :
    Extends Path.IsInlineName fs (collectTools fs project tools).2.2 := by
  induction tools generalizing fs project with
  | nil => exact .refl fs
  | cons tool tools ih =>
    have htool := tool.extends_collect fs project
    rw [collectTools]
    split
    · next hcollect => rwa [hcollect] at htool
    · next table between made hcollect =>
      rw [hcollect] at htool
      have hrest := ih made between
      split
      · next htools => rw [htools] at hrest; exact htool.trans hrest
      · next htools => rw [htools] at hrest; exact htool.trans hrest

theorem extends_collectMembers (fs : FileSystem) (members : List Member) :
    Extends Path.IsInlineName fs (collectMembers fs members).2.2 := by
  induction members generalizing fs with
  | nil => exact .refl fs
  | cons m members ih =>
    have htools := extends_collectTools fs m.project m.tools
    rw [collectMembers]
    split
    · next hcollect => rwa [hcollect] at htools
    · next made hcollect =>
      rw [hcollect] at htools
      have hrest := ih made
      split
      · next hmembers => rw [hmembers] at hrest; exact htools.trans hrest
      · next hmembers => rw [hmembers] at hrest; exact htools.trans hrest

end Solution

end BuildSteps
