import BuildSteps.Proofs.Finalization
import BuildSteps.Proofs.Forall
import BuildSteps.Proofs.Tool.Collection

/-!
# What the tools of a solution collect

The tools of a project append to the same lists of steps, one after the other. The table of each
lists the stretch that the tool has made and nothing else, in every configuration.
-/

namespace BuildSteps

structure Origin where
  tool : Tool
  step : Step

namespace Solution

/-! ## 1. Where steps come from -/

def appended (tool : Tool) (before after : Project) : List (List Origin) :=
  List.zipWith (fun conf conf' => (conf'.steps.drop conf.steps.length).map (Origin.mk tool))
    before.configurations after.configurations

def originsOfTools (fs : FileSystem) (project : Project) : List Tool → List (List Origin)
  | [] => project.configurations.map fun _ => []
  | tool :: tools =>
    let collected := tool.collect fs project
    List.zipWith (· ++ ·) (appended tool project collected.project)
      (originsOfTools collected.files collected.project tools)

def origins (fs : FileSystem) : List Member → List (List (List Origin))
  | [] => []
  | m :: rest =>
    originsOfTools fs m.project m.tools :: origins (collectTools fs m.project m.tools).2.2 rest

/-! ## 2. One project -/

/-- The tables of tools list, for a target and from a position on, the stretches of the steps that
the tools have made for it, one stretch behind the other. -/
inductive Covers (target : Target) : Nat → List (Tool × StepTable) → List Origin → Prop
  | nil (start : Nat) : Covers target start [] []
  | cons {start : Nat} {tool : Tool} {table : StepTable} {rest : List (Tool × StepTable)}
    {steps : List Step} {made : List Origin} :
    (∀ i, table.lists target i = true ↔ start ≤ i ∧ i < start + steps.length) →
      Covers target (start + steps.length) rest made →
      Covers target start ((tool, table) :: rest) (steps.map (Origin.mk tool) ++ made)

/-- What tools that all succeed do to a project whose configurations have `start` steps each. `made`
are the steps they make for each target. -/
structure Gathers (start : Nat) (tools : List Tool) (project project' : Project)
    (tables : List StepTable) (made : Target → List Origin) : Prop where
  frame : ∃ files, project' = { project with
    configurations := project'.configurations
    sourceFiles := files }
  gains : List.Forall₂ (fun conf conf' =>
      conf.Gains (tools.map Tool.folder) ((made conf.target).map (·.step)) conf')
    project.configurations project'.configurations
  covers : ∀ conf ∈ project.configurations,
    Covers conf.target start (tools.zip tables) (made conf.target)
  origin : ∀ target, ∀ origin ∈ made target, origin.tool ∈ tools ∧ origin.step.resolved = none
  uniform : ∀ target target', (made target).length = (made target').length

theorem Gathers.nil (start : Nat) (project : Project) :
    Gathers start [] project project [] fun _ => [] where
  frame := ⟨project.sourceFiles, rfl⟩
  gains := by
    refine List.forall₂_same.2 fun conf _ => ⟨conf.buildExcludes, ?_⟩
    rw [List.map_nil, List.map_nil, List.append_nil]
    rfl
  covers _ _ := .nil start
  origin _ _ h := by cases h
  uniform _ _ := rfl

theorem Gathers.cons {start count : Nat} {tool : Tool} {tools : List Tool}
    {project between project' : Project} {table : StepTable} {tables : List StepTable}
    {steps : Target → List Step} {made : Target → List Origin}
    (hstart : ∀ conf ∈ project.configurations, conf.steps.length = start)
    (hcount : ∀ target, (steps target).length = count)
    (hfirst : tool.Collects project between table steps)
    (hrest : Gathers (start + count) tools between project' tables made) :
    Gathers start (tool :: tools) project project' (table :: tables) fun target =>
      (steps target).map (Origin.mk tool) ++ made target where
  frame := by
    obtain ⟨_, hbetween⟩ := hfirst.frame
    obtain ⟨files, hproject'⟩ := hrest.frame
    refine ⟨files, ?_⟩
    rw [hproject', hbetween]
  gains := by
    refine hfirst.gains.comp hrest.gains fun conf conf' conf'' hgain hgain' => ?_
    -- the target stays, so that the next tools make the steps for the same one
    have htarget : conf'.target = conf.target := by
      obtain ⟨_, rfl⟩ := hgain
      rfl
    rw [htarget] at hgain'
    have hboth := hgain.trans hgain'
    rw [List.singleton_append] at hboth
    rwa [List.map_cons, List.map_append, List.map_map, Function.comp_def, List.map_id']
  covers conf hconf := by
    obtain ⟨conf', hconf', _, rfl⟩ := hfirst.gains.exists_of_mem hconf
    -- the stretch of the first tool starts where the steps ended before
    refine .cons (fun i => ?_) ?_
    · rw [hfirst.lists]
      constructor
      · rintro ⟨other, hother, _, hrange⟩
        rwa [hstart other hother] at hrange
      · intro hrange
        exact ⟨conf, hconf, rfl, by rwa [hstart conf hconf]⟩
    · have hcovers := hrest.covers _ hconf'
      rwa [hcount]
  origin target origin hmem := by
    rcases List.mem_append.1 hmem with hsteps | hmade
    · obtain ⟨step, hstep, rfl⟩ := List.mem_map.1 hsteps
      exact ⟨List.mem_cons_self, hfirst.fresh target step hstep⟩
    · have h := hrest.origin target origin hmade
      exact ⟨List.mem_cons_of_mem _ h.1, h.2⟩
  uniform target target' := by
    rw [List.length_append, List.length_append, List.length_map, List.length_map,
      hfirst.uniform target target', hrest.uniform target target']

theorem appended_eq {tool : Tool} {project project' : Project} {table : StepTable}
    {steps : Target → List Step} (h : tool.Collects project project' table steps) :
    appended tool project project' =
      project.configurations.map fun conf => (steps conf.target).map (Origin.mk tool) := by
  apply List.Forall₂.zipWith_eq
  apply h.gains.imp
  rintro conf _ ⟨_, rfl⟩
  rw [List.drop_left]

theorem collectTools_cons_ok_iff {fs made : FileSystem} {project after : Project} {tool : Tool}
    {tools : List Tool} {tables : List StepTable} :
    collectTools fs project (tool :: tools) = (.ok tables, after, made) ↔
      ∃ table rest, (tool.collect fs project).result = .ok table ∧
        collectTools (tool.collect fs project).files (tool.collect fs project).project
          tools = (.ok rest, after, made) ∧ tables = table :: rest := by
  rw [collectTools]
  constructor
  · intro h
    split at h
    · cases h
    · next table between left hfirst =>
      rw [hfirst]
      split at h
      · cases h
      · next rest after' made' hrest =>
        obtain ⟨htables, hothers⟩ := Prod.mk.inj h
        obtain ⟨rfl, rfl⟩ := Prod.mk.inj hothers
        exact ⟨table, rest, rfl, hrest, (Except.ok.inj htables).symm⟩
  · rintro ⟨table, rest, hresult, hrest, rfl⟩
    generalize tool.collect fs project = collected at hresult hrest
    obtain ⟨result, between, left⟩ := collected
    obtain rfl : result = .ok table := hresult
    simp only [hrest]

theorem collectTools_append_ok_iff {fs fs' : FileSystem} {project collected : Project}
    {earlier later : List Tool} {tables : List StepTable} :
    collectTools fs project (earlier ++ later) = (.ok tables, collected, fs') ↔
      ∃ first rest between files,
        collectTools fs project earlier = (.ok first, between, files) ∧
          collectTools files between later = (.ok rest, collected, fs') ∧
            tables = first ++ rest := by
  induction earlier generalizing fs project tables with
  | nil =>
    constructor
    · exact fun h => ⟨[], tables, project, fs, rfl, h, rfl⟩
    · rintro ⟨first, rest, between, files, hnone, hrest, rfl⟩
      obtain ⟨hfirst, hsame⟩ := Prod.mk.inj hnone
      obtain rfl := Except.ok.inj hfirst
      obtain ⟨rfl, rfl⟩ := Prod.mk.inj hsame
      exact hrest
  | cons tool earlier ih =>
    rw [List.cons_append, collectTools_cons_ok_iff]
    constructor
    · rintro ⟨table, others, hresult, htools, rfl⟩
      obtain ⟨first, rest, between, files, hfirst, hrest, rfl⟩ := ih.1 htools
      exact ⟨table :: first, rest, between, files,
        collectTools_cons_ok_iff.2 ⟨table, first, hresult, hfirst, rfl⟩, hrest, rfl⟩
    · rintro ⟨_, rest, between, files, hfirst, hrest, rfl⟩
      obtain ⟨table, first, hresult, htools, rfl⟩ := collectTools_cons_ok_iff.1 hfirst
      exact ⟨table, first ++ rest, hresult, ih.2 ⟨first, rest, between, files, htools, hrest, rfl⟩,
        rfl⟩

/-- Tools that all succeed. The induction is on the tools; each finds as many steps in one
configuration as in any other. -/
theorem collectTools_ok {start : Nat} {fs fs' : FileSystem} {tools : List Tool}
    {project project' : Project} {tables : List StepTable}
    (hstart : ∀ conf ∈ project.configurations, conf.steps.length = start)
    (h : collectTools fs project tools = (.ok tables, project', fs')) :
    ∃ made, Gathers start tools project project' tables made ∧
      originsOfTools fs project tools = project.configurations.map fun conf => made conf.target := by
  induction tools generalizing start fs project tables with
  | nil =>
    obtain ⟨htables, hrest⟩ := Prod.mk.inj h
    obtain rfl := Except.ok.inj htables
    obtain rfl := (Prod.mk.inj hrest).1
    exact ⟨_, .nil start project, rfl⟩
  | cons tool tools ih =>
    obtain ⟨table, rest, hresult, htools, rfl⟩ := collectTools_cons_ok_iff.1 h
    obtain ⟨steps, hfirst⟩ := Tool.collects hresult
    -- as many for one target as for any other
    have hcount := fun target => hfirst.uniform target ⟨.win32, .make, .debug⟩
    -- so the next tools again find one number of steps everywhere
    have hbetween : ∀ conf ∈ (tool.collect fs project).project.configurations,
        conf.steps.length = start + (steps ⟨.win32, .make, .debug⟩).length := by
      intro conf hconf
      obtain ⟨conf', hconf', _, rfl⟩ := hfirst.gains.flip.exists_of_mem hconf
      rw [List.length_append, hstart conf' hconf', hcount]
    obtain ⟨made, hmade, horigins⟩ := ih hbetween htools
    refine ⟨_, .cons hstart hcount hfirst hmade, ?_⟩
    -- the origins of the others are listed by the configurations between
    have htargets : project.configurations.map (fun conf => made conf.target) =
        (tool.collect fs project).project.configurations.map fun conf => made conf.target := by
      apply List.Forall₂.map_eq
      apply hfirst.gains.imp
      rintro conf _ ⟨_, rfl⟩
      rfl
    rw [originsOfTools]
    simp only [appended_eq hfirst, horigins, ← htargets]
    rw [List.zipWith_map, List.zipWith_self]

/-! ## 3. All projects -/

/-- A member whose configurations had no steps before its tools have collected. -/
structure Gathering where
  before : Member
  project : Project
  tables : List StepTable
  /-- The steps made for each target. -/
  made : Target → List Origin
  clean : ∀ conf ∈ before.project.configurations, conf.steps = []
  gathers : Gathers 0 before.tools before.project project tables made

namespace Gathering

def after (g : Gathering) : Member := { g.before with project := g.project }

def origins (g : Gathering) : List (List Origin) :=
  g.before.project.configurations.map fun conf => g.made conf.target

end Gathering

theorem collectMembers_cons_ok_iff {fs made : FileSystem} {m : Member} {rest collected : List Member}
    {tables : List (List StepTable)} :
    collectMembers fs (m :: rest) = (.ok tables, collected, made) ↔
      ∃ first project between others others',
        collectTools fs m.project m.tools = (.ok first, project, between) ∧
          collectMembers between rest = (.ok others, others', made) ∧
            tables = first :: others ∧ collected = { m with project } :: others' := by
  rw [collectMembers]
  constructor
  · intro h
    split at h
    · cases h
    · next first project between hfirst =>
      split at h
      · cases h
      · next others others' made' hrest =>
        obtain ⟨htables, hothers⟩ := Prod.mk.inj h
        obtain ⟨rfl, rfl⟩ := Prod.mk.inj hothers
        exact ⟨first, project, between, others, others', hfirst, hrest,
          (Except.ok.inj htables).symm, rfl⟩
  · rintro ⟨first, project, between, others, others', hfirst, hrest, rfl, rfl⟩
    rw [hfirst]
    simp only [hrest]

theorem collectMembers_ok {fs fs' : FileSystem} {members collected : List Member}
    {tables : List (List StepTable)}
    (clean : ∀ m ∈ members, ∀ conf ∈ m.project.configurations, conf.steps = [])
    (h : collectMembers fs members = (.ok tables, collected, fs')) :
    ∃ gatherings : List Gathering, gatherings.map (·.before) = members ∧
      gatherings.map (·.after) = collected ∧ gatherings.map (·.tables) = tables ∧
      gatherings.map (·.origins) = origins fs members := by
  induction members generalizing fs collected tables with
  | nil =>
    obtain ⟨htables, hrest⟩ := Prod.mk.inj h
    obtain rfl := Except.ok.inj htables
    obtain rfl := (Prod.mk.inj hrest).1
    exact ⟨[], rfl, rfl, rfl, rfl⟩
  | cons m members ih =>
    obtain ⟨first, project, between, others, rest, htools, hmembers, rfl, rfl⟩ :=
      collectMembers_cons_ok_iff.1 h
    have hclean := clean m List.mem_cons_self
    have hstart : ∀ conf ∈ m.project.configurations, conf.steps.length = 0 := fun conf hconf =>
      List.length_eq_zero_iff.2 (hclean conf hconf)
    obtain ⟨made, hmade, horigins⟩ := collectTools_ok hstart htools
    obtain ⟨gatherings, rfl, rfl, rfl, hall⟩ :=
      ih (fun other hother => clean other (List.mem_cons_of_mem m hother)) hmembers
    refine ⟨⟨m, project, first, made, hclean, hmade⟩ :: gatherings, rfl, rfl, rfl, ?_⟩
    rw [List.map_cons, hall, origins, horigins, htools]
    rfl

theorem discoverMembers_ok {fs : FileSystem} {members discovered : List Member}
    (h : discoverMembers fs members = (.ok (), discovered)) :
    List.Forall₂ (fun m m' => ∃ files found, m' = { m with
      project := { m.project with sourceFiles := files, discovered := found } })
      members discovered := by
  induction members generalizing discovered with
  | nil =>
    obtain rfl := (Prod.mk.inj h).2
    exact .nil
  | cons m members ih =>
    rw [discoverMembers] at h
    split at h
    · obtain ⟨hrest, rfl⟩ := Prod.mk.inj h
      exact .cons ⟨m.project.sourceFiles, m.project.discovered, rfl⟩ (ih (Prod.ext hrest rfl))
    · split at h
      · cases h
      · next project hproject =>
        obtain ⟨hrest, rfl⟩ := Prod.mk.inj h
        refine .cons ?_ (ih (Prod.ext hrest rfl))
        rw [Project.discover] at hproject
        split at hproject
        · cases hproject
        · next files hfiles =>
          obtain rfl := Except.ok.inj hproject
          obtain ⟨sources, hsources⟩ := m.project.addSourceFiles_frame files
          refine ⟨sources, true, ?_⟩
          rw [hsources]

end Solution

end BuildSteps
