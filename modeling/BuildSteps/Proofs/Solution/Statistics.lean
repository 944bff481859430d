import BuildSteps.Proofs.Project.Growth
import BuildSteps.Proofs.Solution.Generation

/-!
# What the statistics of a generation count

The numbers are taken at different moments of a generation: the source files once all sources were
found and again once the tools have collected, the steps at the end and kind by kind. They still add
up, as no phase takes a source file away and every step has exactly one kind.
-/

namespace BuildSteps.Solution

/-! ## 1. Steps -/

def allSteps (members : List Member) : List Step :=
  members.flatMap fun m => m.project.configurations.flatMap (·.steps)

theorem length_allSteps (members : List Member) :
    (allSteps members).length = (members.map (·.project.stepCount)).sum := by
  rw [allSteps, List.length_flatMap]
  refine congrArg List.sum (List.map_congr_left fun m _ => ?_)
  rw [List.length_flatMap]
  rfl

theorem sum_countP_kind (steps : List Step) :
    (StepKind.all.map fun kind => steps.countP (·.kind = kind)).sum = steps.length := by
  induction steps with
  | nil => rfl
  | cons step steps ih =>
    simp only [StepKind.all, List.map_cons, List.map_nil, List.sum_cons, List.sum_nil] at ih ⊢
    -- the step counts for its own kind and for no other
    cases hkind : step.kind <;>
      simp only [List.countP_cons, hkind, List.length_cons] <;> simp <;> omega

def positiveCounts (count : StepKind → Nat) (kinds : List StepKind) : List (StepKind × Nat) :=
  kinds.filterMap fun kind => if count kind = 0 then none else some (kind, count kind)

theorem stepCounts_eq (members : List Member) :
    stepCounts members =
      positiveCounts (fun kind => (allSteps members).countP (·.kind = kind)) StepKind.all := by
  simp only [List.countP_eq_length_filter]
  rfl

theorem positiveCounts_cons (count : StepKind → Nat) (kind : StepKind) (kinds : List StepKind) :
    positiveCounts count (kind :: kinds) =
      if count kind = 0 then positiveCounts count kinds
      else (kind, count kind) :: positiveCounts count kinds := by
  rw [positiveCounts, List.filterMap_cons]
  split
  · next hnone =>
    split at hnone
    · next hzero => rw [if_pos hzero, positiveCounts]
    · cases hnone
  · next hsome =>
    split at hsome
    · cases hsome
    · next hzero =>
      obtain rfl := Option.some.inj hsome
      rw [if_neg hzero, positiveCounts]

theorem sum_positiveCounts (count : StepKind → Nat) (kinds : List StepKind) :
    ((positiveCounts count kinds).map (·.2)).sum = (kinds.map count).sum := by
  induction kinds with
  | nil => rfl
  | cons kind kinds ih =>
    rw [positiveCounts_cons, List.map_cons, List.sum_cons, ← ih]
    split
    · next hzero => rw [hzero, Nat.zero_add]
    · rw [List.map_cons, List.sum_cons]

theorem sublist_positiveCounts (count : StepKind → Nat) (kinds : List StepKind) :
    ((positiveCounts count kinds).map (·.1)).Sublist kinds := by
  induction kinds with
  | nil => exact .slnil
  | cons kind kinds ih =>
    rw [positiveCounts_cons]
    split
    · exact ih.cons kind
    · exact ih.cons_cons kind

theorem mem_positiveCounts {count : StepKind → Nat} {kinds : List StepKind} {kind : StepKind}
    {n : Nat} :
    (kind, n) ∈ positiveCounts count kinds ↔ kind ∈ kinds ∧ 0 < n ∧ n = count kind := by
  rw [positiveCounts, List.mem_filterMap]
  constructor
  · rintro ⟨other, hmem, hother⟩
    split at hother
    · cases hother
    · next hzero =>
      obtain ⟨rfl, rfl⟩ := Prod.mk.inj (Option.some.inj hother)
      exact ⟨hmem, Nat.pos_of_ne_zero hzero, rfl⟩
  · rintro ⟨hmem, hpos, rfl⟩
    exact ⟨kind, hmem, if_neg (Nat.ne_of_gt hpos)⟩

/-! ## 2. Source files -/

theorem sourceFileCount_congr {members members' : List Member}
    (h : members'.map (·.project.sourceFiles) = members.map (·.project.sourceFiles)) :
    sourceFileCount members' = sourceFileCount members := by
  have hlengths := congrArg (List.map List.length) h
  rw [List.map_map, List.map_map] at hlengths
  exact congrArg List.sum hlengths

theorem grows_collectTools {fs fs' : FileSystem} {project project' : Project} {tools : List Tool}
    {tables : List StepTable} (h : collectTools fs project tools = (.ok tables, project', fs')) :
    project.Grows project' := by
  induction tools generalizing fs project tables with
  | nil =>
    obtain rfl := (Prod.mk.inj (Prod.mk.inj h).2).1
    exact .of_eq rfl
  | cons tool tools ih =>
    obtain ⟨_, _, -, hrest, -⟩ := collectTools_cons_ok_iff.1 h
    exact (tool.grows_collect fs project).trans (ih hrest)

/-- What the tools of members have collected: as many lists of tables as there are members, and
source files behind those of each project. -/
theorem grows_collectMembers {fs fs' : FileSystem} {members collected : List Member}
    {tables : List (List StepTable)}
    (h : collectMembers fs members = (.ok tables, collected, fs')) :
    tables.length = collected.length ∧
      List.Forall₂ (fun m m' => m.project.Grows m'.project) members collected := by
  induction members generalizing fs collected tables with
  | nil =>
    obtain ⟨htables, hrest⟩ := Prod.mk.inj h
    obtain rfl := Except.ok.inj htables
    obtain rfl := (Prod.mk.inj hrest).1
    exact ⟨rfl, .nil⟩
  | cons m members ih =>
    obtain ⟨first, project, between, others, rest, htools, hmembers, rfl, rfl⟩ :=
      collectMembers_cons_ok_iff.1 h
    obtain ⟨hlength, hgrows⟩ := ih hmembers
    exact ⟨congrArg Nat.succ hlength, .cons (grows_collectTools htools) hgrows⟩

theorem sourceFiles_finalizeMembers {entries : List (Member × List StepTable)}
    {members : List Member} (h : finalizeMembers entries = (.ok (), members)) :
    members.map (·.project.sourceFiles) = entries.map (·.1.project.sourceFiles) := by
  symm
  apply List.Forall₂.map_eq
  apply (finalizeMembers_ok h).imp
  rintro entry _ rfl
  rfl

/-! ## 3. Statistics -/

/-- Whether statistics account for a generation in which members had their sources found, then had
tools collect, and at the end are finalized. -/
structure Accounts (stats : GenerationStats) (discovered collected finalized : List Member) :
    Prop where
  projects : stats.projects = finalized.length
  totalSteps : stats.totalSteps = (finalized.map (·.project.stepCount)).sum
  /-- No two numbers stand under the same name. -/
  names : (stats.steps.map (·.1.name)).Nodup
  /-- A number stands for each kind that occurs, and is that of the steps of the kind. -/
  kinds : ∀ kind count, (kind, count) ∈ stats.steps ↔
    0 < count ∧ count = (allSteps finalized).countP (·.kind = kind)
  sourceFiles : stats.sourceFiles = sourceFileCount discovered
  /-- No tool takes a source file away, so that no project has fewer than before. -/
  grows : List.Forall₂ (fun m m' => m.project.sourceFiles <+: m'.project.sourceFiles)
    discovered collected
  /-- The generated files are what each project has more than before, over all projects. -/
  generatedFiles : stats.generatedFiles = (List.zipWith (fun m m' =>
    m'.project.sourceFiles.length - m.project.sourceFiles.length) discovered collected).sum
  /-- Nothing after the tools have collected changes the source files. -/
  keeps : finalized.map (·.project.sourceFiles) = collected.map (·.project.sourceFiles)
  conserves : stats.sourceFiles + stats.generatedFiles = sourceFileCount finalized

theorem totalSteps_stepCounts {stats : GenerationStats} {members : List Member}
    (h : stats.steps = stepCounts members) :
    stats.totalSteps = (members.map (·.project.stepCount)).sum := by
  calc stats.totalSteps
    _ = ((stepCounts members).map (·.2)).sum := by rw [← h]; rfl
    _ = (StepKind.all.map fun kind => (allSteps members).countP (·.kind = kind)).sum := by
      rw [stepCounts_eq, sum_positiveCounts]
    _ = (allSteps members).length := sum_countP_kind _
    _ = _ := length_allSteps members

theorem nodup_stepCounts (members : List Member) :
    ((stepCounts members).map (·.1.name)).Nodup := by
  have hnames : (StepKind.all.map StepKind.name).Nodup := by decide
  rw [stepCounts_eq]
  have hsublist := (sublist_positiveCounts
    (fun kind => (allSteps members).countP (·.kind = kind)) StepKind.all).map StepKind.name
  rw [List.map_map] at hsublist
  exact hsublist.nodup hnames

theorem mem_stepCounts {members : List Member} {kind : StepKind} {count : Nat} :
    (kind, count) ∈ stepCounts members ↔
      0 < count ∧ count = (allSteps members).countP (·.kind = kind) := by
  rw [stepCounts_eq, mem_positiveCounts]
  exact ⟨And.right, fun h => ⟨kind.mem_all, h⟩⟩

/-- Files that are added member by member are the files of all members that are new. -/
theorem sourceFileCount_add_sum {members members' : List Member}
    (h : List.Forall₂ (fun m m' => m.project.sourceFiles <+: m'.project.sourceFiles)
      members members') :
    sourceFileCount members + (List.zipWith (fun m m' =>
      m'.project.sourceFiles.length - m.project.sourceFiles.length) members members').sum =
        sourceFileCount members' := by
  induction h with
  | nil => rfl
  | @cons m m' members members' hfirst _ ih =>
    have hle := hfirst.length_le
    simp only [sourceFileCount, List.map_cons, List.foldr_cons, List.zipWith_cons_cons,
      List.sum_cons] at ih ⊢
    omega

/-- The statistics of a generation that succeeds, from the members at its moments. -/
theorem generate_stats {s : Solution} {fs : FileSystem} {stats : GenerationStats}
    (h : (s.generate fs).result = .ok stats) :
    ∃ o, s.collect fs = .ok o ∧ stats = {
      projects := s.members.length
      sourceFiles := sourceFileCount o.discovered
      generatedFiles := sourceFileCount o.collected - sourceFileCount o.discovered
      steps := stepCounts (s.generate fs).solution.members } := by
  obtain ⟨o, projects, hcollect, hresolve, hfinalize⟩ := generate_phases h
  refine ⟨o, hcollect, ?_⟩
  generalize (s.generate fs).solution.members = members at hfinalize ⊢
  rw [generate, hcollect] at h
  simp only [finalize, hresolve, hfinalize] at h
  exact (Except.ok.inj h).symm

/-- In a generation that succeeds only the tools add source files once the sources are found. -/
theorem sourceFiles_generate {s : Solution} {fs : FileSystem} {stats : GenerationStats}
    {o : Gathered} (h : (s.generate fs).result = .ok stats) (hcollect : s.collect fs = .ok o) :
    List.Forall₂ (fun m m' => m.project.sourceFiles <+: m'.project.sourceFiles)
        o.discovered o.collected ∧
      (s.generate fs).solution.members.map (·.project.sourceFiles) =
        o.collected.map (·.project.sourceFiles) := by
  obtain ⟨o', projects, hcollect', hresolve, hfinalize⟩ := generate_phases h
  obtain rfl : o = o' := Except.ok.inj (hcollect.symm.trans hcollect')
  obtain ⟨htables, hgrows⟩ := grows_collectMembers (collect_phases hcollect).2
  -- resolution and finalization only change configurations
  have hresolved := Resolution.sourceFiles_resolveDependencies (o.collected.map (·.project))
  rw [hresolve, List.map_map] at hresolved
  have hlength : projects.length = o.collected.length := by
    have hboth := congrArg List.length hresolved
    rwa [List.length_map, List.length_map] at hboth
  refine ⟨hgrows.imp fun _ _ => Project.Grows.prefix_sourceFiles, ?_⟩
  rw [sourceFiles_finalizeMembers hfinalize, map_project_entries (·.sourceFiles) hlength htables,
    hresolved]
  rfl

/-- **The statistics add up.** What a generation that succeeds returns accounts for all steps, by
project and by kind, and for all source files, as found and as generated. -/
theorem accounts_generate {s : Solution} {fs : FileSystem} {stats : GenerationStats}
    (h : (s.generate fs).result = .ok stats) :
    ∃ o, s.collect fs = .ok o ∧
      Accounts stats o.discovered o.collected (s.generate fs).solution.members := by
  obtain ⟨o, hcollect, rfl⟩ := generate_stats h
  obtain ⟨hgrows, hkeeps⟩ := sourceFiles_generate h hcollect
  have hsum := sourceFileCount_add_sum hgrows
  have hmembers : s.members.length = (s.generate fs).solution.members.length := by
    have hfinal := congrArg List.length hkeeps
    rw [List.length_map, List.length_map] at hfinal
    rw [hfinal, ← hgrows.length_eq, (discoverMembers_ok (collect_phases hcollect).1).length_eq]
  refine ⟨o, hcollect, hmembers, totalSteps_stepCounts rfl, nodup_stepCounts _,
    fun _ _ => mem_stepCounts, rfl, hgrows, ?_, hkeeps, ?_⟩
  · show sourceFileCount o.collected - sourceFileCount o.discovered = _
    rw [← hsum, Nat.add_sub_cancel_left]
  · show sourceFileCount o.discovered +
      (sourceFileCount o.collected - sourceFileCount o.discovered) = _
    rw [sourceFileCount_congr hkeeps, ← hsum, Nat.add_sub_cancel_left]

theorem accounts_generate_sample :
    (sample.generate sampleFiles).result = .ok sampleStats ∧
    ∃ o, sample.collect sampleFiles = .ok o ∧
      Accounts sampleStats o.discovered o.collected
        (sample.generate sampleFiles).solution.members := by
  have stats : (sample.generate sampleFiles).result = .ok sampleStats := by decide +kernel
  exact ⟨stats, accounts_generate stats⟩

end BuildSteps.Solution
