import BuildSteps.Proofs.Attachment
import BuildSteps.Proofs.Solution.Unresolved

/-!
# Finalization in any order

The tables that tools collect on a project one after the other list different positions, because each
tool appends its steps behind those of the others. So it does not matter in which order the tools
finalize: each table attaches to its own steps, and nothing that a bundle is made of changes.
-/

namespace BuildSteps

/-! ## 1. Tables that list different positions -/

def StepTable.Apart (table other : StepTable) : Prop :=
  ∀ target index, table.lists target index = true → other.lists target index = false

instance : Std.Symm StepTable.Apart where
  symm table other h target index hother := by
    cases hlists : table.lists target index with
    | false => rfl
    | true => rw [h target index hlists] at hother; cases hother

/-- Of tables that are all apart just one lists a position that is listed. -/
theorem StepTable.lists_iff_of_pairwise {tables : List StepTable} (h : tables.Pairwise Apart)
    {m n : Nat} {table other : StepTable} (hm : tables[m]? = some table)
    (hn : tables[n]? = some other) {target : Target} {index : Nat}
    (hlists : table.lists target index = true) : other.lists target index = true ↔ n = m := by
  obtain ⟨hmlt, rfl⟩ := List.getElem?_eq_some_iff.1 hm
  obtain ⟨hnlt, rfl⟩ := List.getElem?_eq_some_iff.1 hn
  constructor
  · intro hother
    rcases Nat.lt_trichotomy n m with hlt | heq | hgt
    · rw [List.pairwise_iff_getElem.1 h n m hnlt hmlt hlt target index hother] at hlists
      cases hlists
    · exact heq
    · rw [List.pairwise_iff_getElem.1 h m n hmlt hnlt hgt target index hlists] at hother
      cases hother
  · rintro rfl
    exact hlists

namespace Finalization

theorem attachWhere_comm {bundle other : Bundle} {listed more : Nat → Bool}
    (h : ∀ i, listed i = true → more i = false) (steps : List Step) :
    attachWhere other more (attachWhere bundle listed steps) =
      attachWhere bundle listed (attachWhere other more steps) := by
  apply List.ext_getElem?
  intro i
  rw [getElem?_attachWhere, getElem?_attachWhere, getElem?_attachWhere, getElem?_attachWhere,
    Option.map_map, Option.map_map]
  congr 1
  funext step
  rw [Function.comp_apply, Function.comp_apply]
  cases hi : listed i with
  | false => rfl
  | true => rw [h i hi]; rfl

-- a bundle does not depend on the steps, which are all that attaching changes
theorem attachTable_comm {table other : StepTable} (h : table.Apart other)
    (additional more : List AdditionalDefinition) (conf : Configuration) :
    attachTable more other (attachTable additional table conf) =
      attachTable additional table (attachTable more other conf) := by
  show { conf with
      steps := attachWhere (conf.bundle more) (other.lists conf.target)
        (attachWhere (conf.bundle additional) (table.lists conf.target) conf.steps) } =
    { conf with
      steps := attachWhere (conf.bundle additional) (table.lists conf.target)
        (attachWhere (conf.bundle more) (other.lists conf.target) conf.steps) }
  rw [attachWhere_comm (h conf.target)]

end Finalization

open Finalization

def AllApart (collected : List (Tool × StepTable)) : Prop :=
  collected.Pairwise fun pair other => pair.2.Apart other.2

instance : Std.Symm fun pair other : Tool × StepTable => pair.2.Apart other.2 where
  symm _ _ h := symm h

theorem attachTables_perm {order given : List (Tool × StepTable)} (hperm : order.Perm given)
    (hapart : AllApart given) : attachTables order = attachTables given := by
  funext conf
  refine (hperm.symm.foldl_eq' (fun pair hpair other hother conf => ?_) conf).symm
  by_cases heq : pair = other
  · rw [heq]
  · exact attachTable_comm (hapart.forall hpair hother heq) _ _ _

theorem getElem?_attachTables_of_none {collected : List (Tool × StepTable)} {conf : Configuration}
    {i : Nat} (h : ∀ pair ∈ collected, pair.2.lists conf.target i = false) :
    (attachTables collected conf).steps[i]? = conf.steps[i]? := by
  induction collected generalizing conf with
  | nil => rfl
  | cons pair rest ih =>
    obtain ⟨hpair, hrest⟩ := List.forall_mem_cons.1 h
    have hfirst : (attachTable pair.1.additional pair.2 conf).steps[i]? = conf.steps[i]? := by
      rw [attachTable, getElem?_attachWhere, hpair]
      exact Option.map_id' ..
    show (attachTables rest (attachTable pair.1.additional pair.2 conf)).steps[i]? = _
    rw [ih, hfirst]
    exact hrest

/-- A step is left to the one table that lists its position. -/
theorem getElem?_attachTables_of_lists {collected : List (Tool × StepTable)} (h : AllApart collected)
    {pair : Tool × StepTable} (hpair : pair ∈ collected) {conf : Configuration} {i : Nat}
    (hlists : pair.2.lists conf.target i = true) :
    (attachTables collected conf).steps[i]? =
      conf.steps[i]?.map (·.attach (conf.bundle pair.1.additional)) := by
  -- the table can as well be the first one, and the others leave the step alone
  obtain ⟨before, after, rfl⟩ := List.append_of_mem hpair
  have hfirst : (before ++ pair :: after).Perm (pair :: (before ++ after)) := List.perm_middle
  have hothers := (List.pairwise_cons.1 ((hfirst.pairwise_iff symm).1 h)).1
  rw [← attachTables_perm hfirst.symm h]
  show (attachTables (before ++ after) (attachTable pair.1.additional pair.2 conf)).steps[i]? = _
  rw [getElem?_attachTables_of_none, attachTable, getElem?_attachWhere]
  · simp only [hlists, if_true]
  · exact fun other hother => hothers other hother conf.target i hlists

/-! ## 2. What tools collect one after the other -/

def Configuration.Keeps (conf conf' : Configuration) : Prop :=
  conf'.target = conf.target ∧ conf.steps <+: conf'.steps

theorem Configuration.Keeps.trans {conf conf' conf'' : Configuration} (h : conf.Keeps conf')
    (h' : conf'.Keeps conf'') : conf.Keeps conf'' :=
  ⟨h'.1.trans h.1, h.2.trans h'.2⟩

theorem Configuration.Keeps.getElem? {conf conf' : Configuration} (h : conf.Keeps conf') {i : Nat}
    {step : Step} (hstep : conf.steps[i]? = some step) : conf'.steps[i]? = some step := by
  obtain ⟨more, hmore⟩ := h.2
  rw [← hmore, List.getElem?_append_left (List.getElem?_eq_some_iff.1 hstep).1, hstep]

theorem targets_of_keeps {confs confs' : List Configuration}
    (h : List.Forall₂ Configuration.Keeps confs confs') :
    confs'.map (·.target) = confs.map (·.target) :=
  List.Forall₂.map_eq (h.flip.imp fun _ _ hkeeps => hkeeps.1)

theorem Tool.Collects.keeps {tool : Tool} {project project' : Project} {table : StepTable}
    {steps : Target → List Step} (h : tool.Collects project project' table steps) :
    List.Forall₂ Configuration.Keeps project.configurations project'.configurations := by
  refine h.gains.imp fun conf conf' hgains => ?_
  obtain ⟨_, rfl⟩ := hgains
  exact ⟨rfl, List.prefix_append _ _⟩

namespace Solution

variable {fs fs' : FileSystem} {tools : List Tool} {project collected : Project}
  {tables : List StepTable}

theorem collectTools_keeps (h : collectTools fs project tools = (.ok tables, collected, fs')) :
    tables.length = tools.length ∧
      List.Forall₂ Configuration.Keeps project.configurations collected.configurations := by
  induction tools generalizing fs project tables with
  | nil =>
    obtain ⟨htables, hrest⟩ := Prod.mk.inj h
    obtain rfl := Except.ok.inj htables
    obtain rfl := (Prod.mk.inj hrest).1
    exact ⟨rfl, List.forall₂_same.2 fun conf _ => ⟨rfl, List.prefix_refl _⟩⟩
  | cons tool tools ih =>
    obtain ⟨table, rest, hresult, htools, rfl⟩ := collectTools_cons_ok_iff.1 h
    obtain ⟨_, hfirst⟩ := Tool.collects hresult
    obtain ⟨hlength, hkeeps⟩ := ih htools
    refine ⟨by rw [List.length_cons, List.length_cons, hlength], ?_⟩
    exact hfirst.keeps.comp hkeeps fun _ _ _ => Configuration.Keeps.trans

/-- Tables list positions behind the steps that were there. -/
theorem lists_behind (h : collectTools fs project tools = (.ok tables, collected, fs'))
    {table : StepTable} (htable : table ∈ tables) {target : Target} {index : Nat}
    (hlists : table.lists target index = true) :
    ∃ conf ∈ project.configurations, conf.target = target ∧ conf.steps.length ≤ index := by
  induction tools generalizing fs project tables with
  | nil =>
    obtain rfl := Except.ok.inj (Prod.mk.inj h).1
    cases htable
  | cons tool tools ih =>
    obtain ⟨first, rest, hresult, htools, rfl⟩ := collectTools_cons_ok_iff.1 h
    obtain ⟨_, hfirst⟩ := Tool.collects hresult
    rcases List.mem_cons.1 htable with rfl | hrest
    · obtain ⟨conf, hconf, htarget, hle, -⟩ := (hfirst.lists target index).1 hlists
      exact ⟨conf, hconf, htarget, hle⟩
    · obtain ⟨conf', hconf', htarget, hle⟩ := ih htools hrest
      obtain ⟨conf, hconf, hkeeps⟩ := hfirst.keeps.flip.exists_of_mem hconf'
      exact ⟨conf, hconf, hkeeps.1.symm.trans htarget, hkeeps.2.length_le.trans hle⟩

theorem pairwise_apart (distinct : (project.configurations.map (·.target)).Nodup)
    (h : collectTools fs project tools = (.ok tables, collected, fs')) :
    tables.Pairwise StepTable.Apart := by
  induction tools generalizing fs project tables with
  | nil =>
    obtain rfl := Except.ok.inj (Prod.mk.inj h).1
    exact .nil
  | cons tool tools ih =>
    obtain ⟨first, rest, hresult, htools, rfl⟩ := collectTools_cons_ok_iff.1 h
    obtain ⟨steps, hfirst⟩ := Tool.collects hresult
    refine List.pairwise_cons.2 ⟨fun table htable target index hlists => ?_,
      ih (targets_of_keeps hfirst.keeps ▸ distinct) htools⟩
    -- what is listed first is in front of the steps that the other tools find
    rw [← Bool.not_eq_true]
    intro hother
    obtain ⟨conf, hconf, htarget, -, hlt⟩ := (hfirst.lists target index).1 hlists
    obtain ⟨conf', hconf', htarget', hle⟩ := lists_behind htools htable hother
    obtain ⟨conf₀, hconf₀, _, rfl⟩ := hfirst.gains.flip.exists_of_mem hconf'
    have hsame : conf₀ = conf :=
      List.inj_on_of_nodup_map distinct hconf₀ hconf (htarget'.trans htarget.symm)
    subst hsame
    obtain rfl : conf₀.target = target := htarget
    rw [List.length_append] at hle
    omega

/-! ## 3. Finalizing what was collected -/

theorem keeps_of_resolveDependencies {projects resolved : List Project} {ready : Project} {i : Nat}
    (h : resolveDependencies projects = (.ok (), resolved)) (hi : projects[i]? = some collected)
    (hready : resolved[i]? = some ready) :
    List.Forall₂ Configuration.Keeps collected.configurations ready.configurations := by
  obtain ⟨project', hproject', hfound, hpassed⟩ :=
    (Resolution.getElem?_resolveDependencies h).2 i collected hi
  obtain rfl := Option.some.inj (hready.symm.trans hproject')
  by_cases hshadowed : Resolution.Shadowed projects i
  · rw [hpassed hshadowed]
    exact List.forall₂_same.2 fun conf _ => ⟨rfl, List.prefix_refl _⟩
  · obtain ⟨confs, rfl, hconfs⟩ := hfound hshadowed
    refine hconfs.imp fun conf conf' hconf => ?_
    obtain ⟨_, -, rfl⟩ := Resolution.resolveConfiguration_ok hconf
    exact ⟨rfl, List.prefix_refl _⟩

theorem finalizeTools_of_standing {ready : Project} {given : List (Tool × StepTable)}
    (h : ∀ pair ∈ given, ∀ entry ∈ pair.2.entries, ready.standing? entry.target = some true) :
    finalizeTools ready given = (.ok (), { ready with
      configurations := Project.alterFirsts (attachTables given) [] ready.configurations }) := by
  cases hresult : finalizeTools ready given with
  | mk result project' =>
    rcases finalizeTools_cases hresult with
      ⟨e, -, pair, hpair, entry, hentry, hrefuses⟩ | ⟨rfl, -⟩
    · exact absurd (h pair hpair entry hentry) (Project.exists_refuses_iff.1 ⟨e, hrefuses⟩)
    · rw [finalizeTools_ok hresult]

theorem allApart_zip (hlength : tables.length = tools.length)
    (h : tables.Pairwise StepTable.Apart) : AllApart (tools.zip tables) := by
  rw [← List.map_snd_zip hlength.le] at h
  exact List.pairwise_map.1 h

/-- Whether the tool at position `n` appends a step at position `j` of the configuration at position
`k` of a project, when tools collect on it one after the other. -/
def Appends (fs : FileSystem) (project : Project) (tools : List Tool) (n k j : Nat)
    (step : Step) : Prop :=
  ∃ conf conf', (collectTools fs project (tools.take n)).2.1.configurations[k]? = some conf ∧
    (collectTools fs project (tools.take (n + 1))).2.1.configurations[k]? = some conf' ∧
      conf.steps.length ≤ j ∧ conf'.steps[j]? = some step

/-- A step that a tool has appended is listed by the table of the tool, and stays. -/
theorem Appends.listed (h : collectTools fs project tools = (.ok tables, collected, fs'))
    {n k j : Nat} {tool : Tool} {step : Step} (htool : tools[n]? = some tool)
    (happends : Appends fs project tools n k j step) :
    step.resolved = none ∧ ∃ table conf, tables[n]? = some table ∧
      collected.configurations[k]? = some conf ∧ conf.steps[j]? = some step ∧
        table.lists conf.target j = true := by
  obtain ⟨hn, rfl⟩ := List.getElem?_eq_some_iff.1 htool
  obtain ⟨conf, conf', hconf, hconf', hj, hstep⟩ := happends
  -- the tools in front, the one in question and the others
  rw [← List.take_append_drop n tools, List.drop_eq_getElem_cons hn] at h
  obtain ⟨first, _, before, files, hfirst, hrest, rfl⟩ := collectTools_append_ok_iff.1 h
  obtain ⟨table, rest, hresult, hlater, rfl⟩ := collectTools_cons_ok_iff.1 hrest
  obtain ⟨steps, hcollects⟩ := Tool.collects hresult
  have hafter : collectTools fs project (tools.take (n + 1)) =
      (.ok (first ++ [table]), (tools[n].collect files before).project,
        (tools[n].collect files before).files) := by
    rw [← List.take_append_getElem hn]
    exact collectTools_append_ok_iff.2 ⟨first, [table], before, files, hfirst,
      collectTools_cons_ok_iff.2 ⟨table, [], hresult, rfl, rfl⟩, rfl⟩
  rw [hfirst] at hconf
  rw [hafter] at hconf'
  obtain ⟨_, rfl⟩ := hcollects.gains.of_getElem? hconf hconf'
  obtain ⟨conf'', hconf'', hkeeps⟩ := (collectTools_keeps hlater).2.exists_of_getElem? hconf'
  have hlength : first.length = n := by
    rw [(collectTools_keeps hfirst).1, List.length_take, Nat.min_eq_left hn.le]
  have hlt := (List.getElem?_eq_some_iff.1 hstep).1
  rw [List.length_append] at hlt
  refine ⟨?_, table, conf'', ?_, hconf'', hkeeps.getElem? hstep, ?_⟩
  · rw [List.getElem?_append_right hj] at hstep
    exact hcollects.fresh conf.target step (List.mem_of_getElem? hstep)
  · rw [List.getElem?_append_right hlength.le, hlength, Nat.sub_self, List.getElem?_cons_zero]
  · rw [hkeeps.1]
    exact (hcollects.lists conf.target j).2 ⟨conf, List.mem_of_getElem? hconf, rfl, hj, hlt⟩

/-- What finalizing in any order comes to. Tools have collected the tables on `project`, `ready` is
what has become of it when its dependencies are resolved, and `final` when it is finalized. -/
structure FinalizesInAnyOrder (fs : FileSystem) (project : Project) (tools : List Tool)
    (tables : List StepTable) (ready final : Project) : Prop where
  length : tables.length = tools.length
  reached : ∀ order, order.Perm (tools.zip tables) → finalizeTools ready order = (.ok (), final)
  /-- A step that a tool has appended is listed by the table of this tool alone, and gets the bundle
  with the definitions of this tool. -/
  owned : ∀ (n k j : Nat) (tool : Tool) (step : Step), tools[n]? = some tool →
    Appends fs project tools n k j step →
      ∃ conf conf' step', ready.configurations[k]? = some conf ∧
        (∀ (m : Nat) (table : StepTable), tables[m]? = some table →
          (table.lists conf.target j = true ↔ m = n)) ∧
        final.configurations[k]? = some conf' ∧ conf'.steps[j]? = some step' ∧
          step.Attached (conf.bundle tool.additional) step'

theorem standing?_of_resolved {ready : Project}
    (h : ∀ conf ∈ ready.configurations, conf.resolved = true) {target : Target}
    (hmem : target ∈ ready.configurations.map (·.target)) :
    ready.standing? target = some true := by
  obtain ⟨standing, hstanding⟩ := Option.ne_none_iff_exists'.1 (Project.standing?_ne_none_iff.2 hmem)
  obtain ⟨conf, hconf, rfl⟩ := Option.map_eq_some_iff.1 hstanding
  rw [hstanding, h conf (List.mem_of_find?_eq_some hconf)]

/-- **Finalization in any order.** When tools have collected on a project with one configuration for
each target, and its dependencies have been resolved, the tools finalize it to one and the same
project in whatever order they do, and each step is finalized by the tool that has appended it. -/
theorem finalizeTools_commutes {projects resolved : List Project} {ready : Project} {i : Nat}
    (distinct : (project.configurations.map (·.target)).Nodup)
    (hcollect : collectTools fs project tools = (.ok tables, collected, fs'))
    (hresolve : resolveDependencies projects = (.ok (), resolved))
    (hcollected : projects[i]? = some collected) (hready : resolved[i]? = some ready)
    (hresolved : ∀ conf ∈ ready.configurations, conf.resolved = true) :
    ∃ final, FinalizesInAnyOrder fs project tools tables ready final := by
  obtain ⟨hlength, hkeeps⟩ := collectTools_keeps hcollect
  have hkept := keeps_of_resolveDependencies hresolve hcollected hready
  have hpairwise := pairwise_apart distinct hcollect
  have hapart := allApart_zip hlength hpairwise
  have htargets := targets_of_keeps hkept
  have hnodup : (ready.configurations.map (·.target)).Nodup := by
    rwa [htargets, targets_of_keeps hkeeps]
  refine ⟨{ ready with
    configurations := ready.configurations.map (attachTables (tools.zip tables)) }, hlength,
    fun order hperm => ?_, fun n k j tool step htool happends => ?_⟩
  · rw [finalizeTools_of_standing, Project.alterFirsts_of_nodup hnodup,
      attachTables_perm hperm hapart]
    -- tables mention targets of configurations only, and these are all resolved
    intro pair hpair entry hentry
    have hmentions := (collectTools_tabulates hcollect).2 pair (hperm.mem_iff.1 hpair)
    exact standing?_of_resolved hresolved (htargets ▸ hmentions.2 entry hentry)
  · obtain ⟨hopen, table, given, htable, hgiven, hstep, hlists⟩ := happends.listed hcollect htool
    obtain ⟨conf, hconf, hkeep⟩ := hkept.exists_of_getElem? hgiven
    rw [← hkeep.1] at hlists
    have hpair : (tool, table) ∈ tools.zip tables :=
      List.mem_of_getElem? (List.getElem?_zip_eq_some.2 ⟨htool, htable⟩)
    refine ⟨conf, attachTables (tools.zip tables) conf, _, hconf, fun m other hother =>
      StepTable.lists_iff_of_pairwise hpairwise htable hother hlists, ?_, ?_,
      Step.attached_attach hopen _⟩
    · rw [List.getElem?_map, hconf, Option.map_some]
    · rw [getElem?_attachTables_of_lists hapart hpair hlists, hkeep.getElem? hstep, Option.map_some]

def begun : Project :=
  { Project.create "app" ⟨"/app"⟩ with
    sourceFiles := [⟨"/app/widget.h"⟩, ⟨"/app/message.proto"⟩]
    configurations := [
      { Configuration.empty ⟨.win64, .vs2022, .debug⟩ with
        steps := [Step.form ⟨.win64, .vs2022, .debug⟩ ⟨"/qt/uic.exe"⟩ ⟨"/app/ui"⟩
          ⟨"/app/main.ui"⟩] },
      Configuration.empty ⟨.win64, .vs2022, .release⟩] }

def bothTools : List Tool := [
  .qt { QtTool.create ⟨"/qt"⟩ ⟨"/app/moc"⟩ with
    additional := [⟨[.win64], [.vs2022], ["MOC"]⟩] },
  .schema { SchemaTool.create ⟨"/app"⟩ ⟨"/app/out"⟩ ⟨"/bin/protoc"⟩ ⟨"/bin/protoc_d"⟩ with
    additional := [⟨[.win64], [.vs2022], ["PROTO"]⟩] }]

def bothTables : List StepTable := [
  ⟨[⟨⟨.win64, .vs2022, .debug⟩, [1]⟩, ⟨⟨.win64, .vs2022, .release⟩, [0]⟩]⟩,
  ⟨[⟨⟨.win64, .vs2022, .debug⟩, [2]⟩, ⟨⟨.win64, .vs2022, .release⟩, [1]⟩]⟩]

theorem finalizeTools_commutes_begun :
    ∃ collected fs' resolved ready,
      (begun.configurations.map (·.target)).Nodup ∧
      collectTools sampleFiles begun bothTools = (.ok bothTables, collected, fs') ∧
      resolveDependencies [collected] = (.ok (), resolved) ∧
      [collected][0]? = some collected ∧ resolved[0]? = some ready ∧
      (∀ conf ∈ ready.configurations, conf.resolved = true) ∧
      ∃ final, FinalizesInAnyOrder sampleFiles begun bothTools bothTables ready final := by
  have distinct : (begun.configurations.map (·.target)).Nodup := by decide
  have hcollect : (collectTools sampleFiles begun bothTools).1 = .ok bothTables := by
    decide +kernel
  have hresolve : (resolveDependencies
      [(collectTools sampleFiles begun bothTools).2.1]).1 = .ok () := by decide +kernel
  have hready : ((resolveDependencies
      [(collectTools sampleFiles begun bothTools).2.1]).2[0]?).map
        (fun project => project.configurations.all (·.resolved)) = some true := by decide +kernel
  obtain ⟨ready, hget, hall⟩ := Option.map_eq_some_iff.1 hready
  have hresolved := List.all_eq_true.1 hall
  exact ⟨_, _, _, ready, distinct, Prod.ext hcollect rfl, Prod.ext hresolve rfl, rfl, hget,
    hresolved, finalizeTools_commutes distinct (Prod.ext hcollect rfl) (Prod.ext hresolve rfl) rfl
      hget hresolved⟩

end Solution

end BuildSteps
