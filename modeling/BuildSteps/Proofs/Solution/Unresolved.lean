import BuildSteps.Proofs.Dependency.Shadowing
import BuildSteps.Proofs.Solution.Failure

/-!
# Steps of unresolved configurations

Finalization walks the projects by position, resolution by name. It fails just when some table lists
a step of a configuration that resolution has not reached, and that happens to projects with a later
namesake and to no others.
-/

namespace BuildSteps

/-! ## 1. Finalizing -/

theorem Tool.finalize_cases {tool : Tool} {table : StepTable} {project project' : Project}
    {result : Except BuildError Unit} (h : tool.finalize table project = (result, project')) :
    (∃ e, result = .error e ∧ ∃ entry ∈ table.entries, project.Refuses entry e) ∨
      (result = .ok () ∧ ∀ entry ∈ table.entries, project.standing? entry.target = some true) := by
  rw [finalize, finalizeSteps] at h
  split at h
  · next hentries =>
    obtain rfl := (Prod.mk.inj h).1
    rcases Finalization.finalizeEntries_cases hentries with ⟨_, he, -⟩ | ⟨-, hall⟩
    · cases he
    · exact .inr ⟨rfl, hall⟩
  · next e _ hentries =>
    obtain rfl := (Prod.mk.inj h).1
    rcases Finalization.finalizeEntries_cases hentries with ⟨_, he, hrefuses⟩ | ⟨⟨_, hcount⟩, -⟩
    · obtain rfl := Except.error.inj he
      exact .inl ⟨e, rfl, hrefuses⟩
    · cases hcount

namespace Solution

theorem finalizeTools_cases {collected : List (Tool × StepTable)} {project project' : Project}
    {result : Except BuildError Unit}
    (h : finalizeTools project collected = (result, project')) :
    (∃ e, result = .error e ∧ ∃ pair ∈ collected, ∃ entry ∈ pair.2.entries,
        project.Refuses entry e) ∨
      (result = .ok () ∧ ∀ pair ∈ collected, ∀ entry ∈ pair.2.entries,
        project.standing? entry.target = some true) := by
  induction collected generalizing project with
  | nil =>
    obtain rfl := (Prod.mk.inj h).1
    exact .inr ⟨rfl, fun _ hmem => absurd hmem List.not_mem_nil⟩
  | cons first rest ih =>
    rw [finalizeTools] at h
    split at h
    · next e between hbetween =>
      obtain rfl := (Prod.mk.inj h).1
      rcases Tool.finalize_cases hbetween with ⟨_, he, hrefuses⟩ | ⟨hok, -⟩
      · obtain rfl := Except.error.inj he
        exact .inl ⟨e, rfl, first, List.mem_cons_self, hrefuses⟩
      · cases hok
    · next between hbetween =>
      rcases Tool.finalize_cases hbetween with ⟨_, he, -⟩ | ⟨-, hfirst⟩
      · cases he
      -- a table that is attached changes no standing
      · have hproject := Tool.finalize_ok hbetween
        have hsame (target : Target) : between.standing? target = project.standing? target := by
          rw [hproject]
          exact Finalization.standing?_attachAll first.1.additional first.2 project target
        rcases ih h with ⟨e, he, pair, hpair, entry, hentry, hrefuses⟩ | ⟨hok, hall⟩
        · refine .inl ⟨e, he, pair, List.mem_cons_of_mem first hpair, entry, hentry, ?_⟩
          exact hrefuses.congr (by rw [hproject]) (hsame entry.target)
        · refine .inr ⟨hok, List.forall_mem_cons.2 ⟨hfirst, fun pair hpair entry hentry => ?_⟩⟩
          rw [← hsame, hall pair hpair entry hentry]

theorem finalizeMembers_cases {entries : List (Member × List StepTable)} {members : List Member}
    {result : Except BuildError Unit} (h : finalizeMembers entries = (result, members)) :
    (∃ e, result = .error e ∧ ∃ entry ∈ entries, ∃ pair ∈ entry.1.tools.zip entry.2,
        ∃ listing ∈ pair.2.entries, entry.1.project.Refuses listing e) ∨
      (result = .ok () ∧ ∀ entry ∈ entries, ∀ pair ∈ entry.1.tools.zip entry.2,
        ∀ listing ∈ pair.2.entries, entry.1.project.standing? listing.target = some true) := by
  induction entries generalizing members with
  | nil =>
    obtain rfl := (Prod.mk.inj h).1
    exact .inr ⟨rfl, fun _ hmem => absurd hmem List.not_mem_nil⟩
  | cons first rest ih =>
    obtain ⟨m, tables⟩ := first
    rw [finalizeMembers] at h
    split at h
    · next e project hproject =>
      obtain rfl := (Prod.mk.inj h).1
      rcases finalizeTools_cases hproject with ⟨_, he, hrefuses⟩ | ⟨hok, -⟩
      · obtain rfl := Except.error.inj he
        exact .inl ⟨e, rfl, (m, tables), List.mem_cons_self, hrefuses⟩
      · cases hok
    · next project hproject =>
      rcases finalizeTools_cases hproject with ⟨_, he, -⟩ | ⟨-, hfirst⟩
      · cases he
      · obtain ⟨hresult, -⟩ := Prod.mk.inj h
        rcases ih (Prod.ext hresult rfl) with ⟨e, he, entry, hentry, hrefuses⟩ | ⟨hok, hall⟩
        · exact .inl ⟨e, he, entry, List.mem_cons_of_mem _ hentry, hrefuses⟩
        · exact .inr ⟨hok, List.forall_mem_cons.2 ⟨hfirst, hall⟩⟩

/-! ## 2. Tables and configurations -/

def Tabulates (project : Project) (tables : List (Tool × StepTable)) : Prop :=
  ∀ pair ∈ tables, pair.2.IsFilled ∧
    ∀ entry ∈ pair.2.entries, entry.target ∈ project.configurations.map (·.target)

-- the steps of tools are not on offer
theorem offer_of_collects {tool : Tool} {project project' : Project} {table : StepTable}
    {steps : Target → List Step} (h : tool.Collects project project' table steps) :
    project'.offer = project.offer := by
  obtain ⟨files, hproject⟩ := h.frame
  have hconfs : project.configurations.map Configuration.offer =
      project'.configurations.map Configuration.offer := by
    apply List.Forall₂.map_eq
    apply h.gains.imp
    rintro conf _ ⟨_, rfl⟩
    rfl
  rw [hproject, Project.offer, ← hconfs]
  rfl

theorem targets_of_offer {project other : Project} (h : project.offer = other.offer) :
    project.configurations.map (·.target) = other.configurations.map (·.target) := by
  have htargets := congrArg (fun p : Project => p.configurations.map (·.target)) h
  rw [Project.offer, Project.offer, List.map_map, List.map_map] at htargets
  exact htargets

theorem collectTools_tabulates {fs fs' : FileSystem} {tools : List Tool}
    {project project' : Project} {tables : List StepTable}
    (h : collectTools fs project tools = (.ok tables, project', fs')) :
    project'.offer = project.offer ∧ Tabulates project' (tools.zip tables) := by
  induction tools generalizing fs project tables with
  | nil =>
    obtain rfl := (Prod.mk.inj (Prod.mk.inj h).2).1
    exact ⟨rfl, fun _ hmem => absurd hmem List.not_mem_nil⟩
  | cons tool tools ih =>
    rw [collectTools] at h
    split at h
    · cases h
    · next table between made hcollect =>
      split at h
      · cases h
      · next rest last left htools =>
        obtain ⟨htables, hrest⟩ := Prod.mk.inj h
        obtain rfl := Except.ok.inj htables
        obtain ⟨rfl, rfl⟩ := Prod.mk.inj hrest
        have hresult : (tool.collect fs project).result = .ok table := by rw [hcollect]
        have hfilled := Tool.isFilled_of_collect hresult
        obtain ⟨steps, hcollects⟩ := Tool.collects hresult
        rw [hcollect] at hcollects
        obtain ⟨hoffer, hall⟩ := ih htools
        have hsame := hoffer.trans (offer_of_collects hcollects)
        refine ⟨hsame, List.forall_mem_cons.2 ⟨⟨hfilled, fun entry hentry => ?_⟩, hall⟩⟩
        -- the steps that are listed belong to a configuration for their target
        obtain ⟨index, hlists⟩ := (StepTable.exists_lists_iff hfilled).2 ⟨entry, hentry, rfl⟩
        obtain ⟨conf, hconf, htarget, -⟩ := (hcollects.lists entry.target index).1 hlists
        rw [targets_of_offer hsame, ← htarget]
        exact List.mem_map_of_mem hconf

theorem collectMembers_tabulates {fs fs' : FileSystem} {members collected : List Member}
    {tables : List (List StepTable)}
    (h : collectMembers fs members = (.ok tables, collected, fs')) :
    collected.map (·.project.offer) = members.map (·.project.offer) ∧
      List.Forall₂ (fun m tables => Tabulates m.project (m.tools.zip tables)) collected tables := by
  induction members generalizing fs collected tables with
  | nil =>
    obtain ⟨htables, hrest⟩ := Prod.mk.inj h
    obtain rfl := Except.ok.inj htables
    obtain rfl := (Prod.mk.inj hrest).1
    exact ⟨rfl, .nil⟩
  | cons m members ih =>
    rw [collectMembers] at h
    split at h
    · cases h
    · next first project between htools =>
      split at h
      · cases h
      · next others rest last hmembers =>
        obtain ⟨htables, hrest⟩ := Prod.mk.inj h
        obtain rfl := Except.ok.inj htables
        obtain ⟨rfl, rfl⟩ := Prod.mk.inj hrest
        obtain ⟨hoffer, htabulates⟩ := collectTools_tabulates htools
        obtain ⟨hoffers, hall⟩ := ih hmembers
        refine ⟨?_, .cons htabulates hall⟩
        rw [List.map_cons, List.map_cons, hoffers, hoffer]

/-! ## 3. Unresolved configurations -/

/-- No phase before finalization reports an unresolved configuration. -/
theorem phases_of_unresolved {s : Solution} {fs : FileSystem} {name : String} {target : Target}
    (h : (s.generate fs).result = .error (.unresolvedConfiguration name target)) :
    ∃ o projects members, s.collect fs = .ok o ∧
      resolveDependencies (o.collected.map (·.project)) = (.ok (), projects) ∧
      finalizeMembers ((withProjects o.collected projects).zip o.tables) =
        (.error (.unresolvedConfiguration name target), members) := by
  cases hcollect : s.collect fs with
  | error g =>
    obtain ⟨e, he, hof⟩ := ofCollection_of_collect hcollect
    rw [generate, hcollect] at h
    obtain rfl := Except.error.inj (he.symm.trans h)
    cases hof
  | ok o =>
    rcases (generate_error_iff hcollect).1 h with hfail | ⟨projects, members, hresolve, hfail⟩
    · cases Resolution.ofResolution_of_resolveDependencies hfail
    · exact ⟨o, projects, members, rfl, hresolve, hfail⟩

/-- Whether a tool of the member at a position has collected steps for a target whose first
configuration is not resolved. -/
def Gathered.HasUnresolvedSteps (o : Gathered) (i : Nat) : Prop :=
  ∃ m tables, o.collected[i]? = some m ∧ o.tables[i]? = some tables ∧
    ∃ target, m.project.standing? target = some false ∧
      ∃ pair ∈ m.tools.zip tables, ∃ index, pair.2.lists target index = true

theorem mem_entries_iff {members : List Member} {projects : List Project}
    {tables : List (List StepTable)} {entry : Member × List StepTable} :
    entry ∈ (withProjects members projects).zip tables ↔
      ∃ (i : Nat) (m : Member) (project : Project) (ts : List StepTable),
        members[i]? = some m ∧ projects[i]? = some project ∧ tables[i]? = some ts ∧
          entry = ({ m with project }, ts) := by
  rw [List.mem_iff_getElem?]
  simp only [List.getElem?_zip_eq_some, withProjects, List.getElem?_zipWith_eq_some]
  constructor
  · rintro ⟨i, ⟨m, project, hm, hproject, hentry⟩, htables⟩
    exact ⟨i, m, project, entry.2, hm, hproject, htables, Prod.ext hentry.symm rfl⟩
  · rintro ⟨i, m, project, ts, hm, hproject, htables, rfl⟩
    exact ⟨i, ⟨m, project, hm, hproject, rfl⟩, htables⟩

theorem resolved_of_resolvedTo {projects : List Project} {project project' : Project}
    (h : Resolution.ResolvedTo projects project project') :
    (∀ conf ∈ project'.configurations, conf.resolved = true) ∧
      project'.configurations.map (·.target) = project.configurations.map (·.target) := by
  obtain ⟨confs, rfl, hconfs⟩ := h
  have hboth : List.Forall₂ (fun conf conf' => conf.target = conf'.target ∧ conf'.resolved = true)
      project.configurations confs := by
    apply hconfs.imp
    intro conf conf' hconf
    obtain ⟨_, -, rfl⟩ := Resolution.resolveConfiguration_ok hconf
    exact ⟨rfl, rfl⟩
  constructor
  · intro conf hconf
    obtain ⟨_, -, -, hresolved⟩ := hboth.flip.exists_of_mem hconf
    exact hresolved
  · exact (List.Forall₂.map_eq (hboth.imp fun _ _ => And.left)).symm

-- what is resolved offers what the projects offered at the start
theorem collect_tabulates {s : Solution} {fs : FileSystem} {o : Gathered}
    (h : s.collect fs = .ok o) :
    (o.collected.map (·.project)).map Project.offer = s.projects.map Project.offer ∧
      List.Forall₂ (fun m tables => Tabulates m.project (m.tools.zip tables)) o.collected
        o.tables := by
  obtain ⟨hdiscover, hcollect⟩ := collect_phases h
  obtain ⟨hoffers, htabulates⟩ := collectMembers_tabulates hcollect
  have hgiven : s.members.map (·.project.offer) = o.discovered.map (·.project.offer) := by
    apply List.Forall₂.map_eq
    apply (discoverMembers_ok hdiscover).imp
    rintro m _ ⟨_, _, rfl⟩
    rfl
  refine ⟨?_, htabulates⟩
  rw [projects, List.map_map, List.map_map]
  exact hoffers.trans hgiven.symm

section

variable {s : Solution} {fs : FileSystem} {o : Gathered} {resolved : List Project}

/-- What resolution makes of the project at a position: it is resolved, or shadowed and as it
was. -/
theorem resolved_or_shadowed (hcollect : s.collect fs = .ok o)
    (hresolve : resolveDependencies (o.collected.map (·.project)) = (.ok (), resolved))
    {i : Nat} {project : Project} (hi : resolved[i]? = some project) :
    ∃ m, o.collected[i]? = some m ∧
      project.configurations.map (·.target) = m.project.configurations.map (·.target) ∧
      (¬ Resolution.Shadowed s.projects i → ∀ conf ∈ project.configurations, conf.resolved = true) ∧
      (Resolution.Shadowed s.projects i → project = m.project) := by
  have hshadowed : Resolution.Shadowed (o.collected.map (·.project)) i ↔
      Resolution.Shadowed s.projects i := by
    rw [Resolution.Shadowed, Resolution.Shadowed,
      Resolution.names_congr (collect_tabulates hcollect).1]
  obtain ⟨hlength, hall⟩ := Resolution.getElem?_resolveDependencies hresolve
  rw [List.length_map] at hlength
  have hlt : i < o.collected.length := hlength ▸ (List.getElem?_eq_some_iff.1 hi).1
  have hm : o.collected[i]? = some o.collected[i] := List.getElem?_eq_getElem hlt
  obtain ⟨project', hi', hfound, hpassed⟩ := hall i o.collected[i].project
    (by rw [List.getElem?_map, hm, Option.map_some])
  obtain rfl := Option.some.inj (hi.symm.trans hi')
  rw [hshadowed] at hfound hpassed
  refine ⟨_, hm, ?_, fun hnot => (resolved_of_resolvedTo (hfound hnot)).1, hpassed⟩
  by_cases hname : Resolution.Shadowed s.projects i
  · rw [hpassed hname]
  · exact (resolved_of_resolvedTo (hfound hname)).2

/-- Finalization refuses nothing but steps of shadowed projects, as unresolved. -/
theorem refuses_shadowed (hcollect : s.collect fs = .ok o)
    (hresolve : resolveDependencies (o.collected.map (·.project)) = (.ok (), resolved))
    {i : Nat} {m : Member} {project : Project} {tables : List StepTable}
    (hm : o.collected[i]? = some m) (hi : resolved[i]? = some project)
    (htables : o.tables[i]? = some tables) {pair : Tool × StepTable}
    (hpair : pair ∈ m.tools.zip tables) {listing : StepTable.Entry}
    (hlisting : listing ∈ pair.2.entries) {e : BuildError} (h : project.Refuses listing e) :
    (∃ name target, e = .unresolvedConfiguration name target) ∧
      Resolution.Shadowed s.projects i ∧ o.HasUnresolvedSteps i := by
  obtain ⟨m', hm', htargets, hresolved, hpassed⟩ := resolved_or_shadowed hcollect hresolve hi
  obtain rfl := Option.some.inj (hm.symm.trans hm')
  have htabulates := (collect_tabulates hcollect).2.of_getElem? hm htables
  obtain ⟨hfilled, hmentions⟩ := htabulates pair hpair
  cases h with
  | missing hnone =>
    have hmem := hmentions listing hlisting
    rw [← htargets] at hmem
    exact absurd hnone (Project.standing?_ne_none_iff.2 hmem)
  | unresolved hfalse =>
    have hshadowed : Resolution.Shadowed s.projects i := by
      by_contra hnot
      obtain ⟨conf, hconf, hopen⟩ := Option.map_eq_some_iff.1 hfalse
      rw [hresolved hnot conf (List.mem_of_find?_eq_some hconf)] at hopen
      cases hopen
    rw [hpassed hshadowed] at hfalse
    refine ⟨⟨_, _, rfl⟩, hshadowed, m, tables, hm, htables, listing.target, hfalse, pair, hpair, ?_⟩
    exact (StepTable.exists_lists_iff hfilled).2 ⟨listing, hlisting, rfl⟩

theorem finalizeMembers_unresolved_iff (hcollect : s.collect fs = .ok o)
    (hresolve : resolveDependencies (o.collected.map (·.project)) = (.ok (), resolved))
    {result : Except BuildError Unit} {members : List Member}
    (h : finalizeMembers ((withProjects o.collected resolved).zip o.tables) = (result, members)) :
    (∀ e, result = .error e → ∃ name target, e = .unresolvedConfiguration name target) ∧
      ((∃ e, result = .error e) ↔
        ∃ i, Resolution.Shadowed s.projects i ∧ o.HasUnresolvedSteps i) := by
  have hentries {entry : Member × List StepTable} :
      entry ∈ (withProjects o.collected resolved).zip o.tables ↔ _ := mem_entries_iff
  rcases finalizeMembers_cases h with
    ⟨e, rfl, entry, hentry, pair, hpair, listing, hlisting, hrefuses⟩ | ⟨rfl, hall⟩
  · obtain ⟨i, m, project, tables, hm, hi, htables, rfl⟩ := hentries.1 hentry
    obtain ⟨hunresolved, hshadowed, hsteps⟩ :=
      refuses_shadowed hcollect hresolve hm hi htables hpair hlisting hrefuses
    refine ⟨fun e' he' => ?_, fun _ => ⟨i, hshadowed, hsteps⟩, fun _ => ⟨e, rfl⟩⟩
    obtain rfl := Except.error.inj he'
    exact hunresolved
  · refine ⟨fun e he => (by cases he), fun ⟨e, he⟩ => (by cases he), ?_⟩
    -- finalization would have met the steps of the shadowed project
    · rintro ⟨i, hshadowed, m, tables, hm, htables, target, hfalse, pair, hpair, hlists⟩
      obtain ⟨hlength, -⟩ := Resolution.getElem?_resolveDependencies hresolve
      rw [List.length_map] at hlength
      have hlt : i < resolved.length := hlength ▸ (List.getElem?_eq_some_iff.1 hm).1
      have hi : resolved[i]? = some resolved[i] := List.getElem?_eq_getElem hlt
      obtain ⟨m', hm', -, -, hpassed⟩ := resolved_or_shadowed hcollect hresolve hi
      obtain rfl := Option.some.inj (hm.symm.trans hm')
      obtain ⟨hfilled, -⟩ := (collect_tabulates hcollect).2.of_getElem? hm htables pair hpair
      obtain ⟨listing, hlisting, rfl⟩ := (StepTable.exists_lists_iff hfilled).1 hlists
      have htrue := hall _ (hentries.2 ⟨i, m, _, tables, hm, hi, htables, rfl⟩) pair hpair listing
        hlisting
      rw [hpassed hshadowed, hfalse] at htrue
      cases htrue

theorem exists_shadowed_of_unresolved {name : String} {target : Target}
    (h : (s.generate fs).result = .error (.unresolvedConfiguration name target)) :
    ∃ o projects, s.collect fs = .ok o ∧
      resolveDependencies (o.collected.map (·.project)) = (.ok (), projects) ∧
      ∃ i, Resolution.Shadowed s.projects i ∧ o.HasUnresolvedSteps i := by
  obtain ⟨o, projects, members, hcollect, hresolve, hfail⟩ := phases_of_unresolved h
  have hiff := (finalizeMembers_unresolved_iff hcollect hresolve hfail).2
  exact ⟨o, projects, hcollect, hresolve, hiff.1 ⟨_, rfl⟩⟩

/-- Projects with different names are all resolved before they are finalized. -/
theorem generate_ne_unresolved (distinct : (s.projects.map (·.name)).Nodup) (name : String)
    (target : Target) :
    (s.generate fs).result ≠ .error (.unresolvedConfiguration name target) := by
  intro h
  obtain ⟨_, _, -, -, i, hshadowed, -⟩ := exists_shadowed_of_unresolved h
  exact Resolution.not_shadowed_of_nodup distinct i hshadowed

end

/-- **When a generation meets an unresolved configuration.** Resolution marks the configurations of
all projects but those with a later namesake. Once sources are collected and dependencies are
resolved, finalization fails just when a tool has collected steps for such a project and the
configuration was not marked from the start. -/
theorem generate_unresolved_iff (s : Solution) (fs : FileSystem) :
    ((∃ name target, (s.generate fs).result = .error (.unresolvedConfiguration name target)) ↔
      ∃ o projects, s.collect fs = .ok o ∧
        resolveDependencies (o.collected.map (·.project)) = (.ok (), projects) ∧
        ∃ i, Resolution.Shadowed s.projects i ∧ o.HasUnresolvedSteps i) ∧
    ∀ o projects, s.collect fs = .ok o →
      resolveDependencies (o.collected.map (·.project)) = (.ok (), projects) →
      ∀ (i : Nat) (project : Project), projects[i]? = some project →
        ¬ Resolution.Shadowed s.projects i →
          ∀ conf ∈ project.configurations, conf.resolved = true := by
  refine ⟨⟨?_, ?_⟩, fun o projects hcollect hresolve i project hi hnot => ?_⟩
  · rintro ⟨name, target, h⟩
    exact exists_shadowed_of_unresolved h
  · rintro ⟨o, projects, hcollect, hresolve, hsteps⟩
    cases hfinalize : finalizeMembers ((withProjects o.collected projects).zip o.tables) with
    | mk result members =>
      obtain ⟨hunresolved, hiff⟩ := finalizeMembers_unresolved_iff hcollect hresolve hfinalize
      obtain ⟨e, rfl⟩ := hiff.2 hsteps
      obtain ⟨name, target, rfl⟩ := hunresolved e rfl
      exact ⟨name, target,
        (generate_error_iff hcollect).2 (.inr ⟨projects, members, hresolve, hfinalize⟩)⟩
  · obtain ⟨_, -, -, hresolved, -⟩ := resolved_or_shadowed hcollect hresolve hi
    exact hresolved hnot

def namesakes : Solution where
  name := "sample"
  members := [
    { project := { Project.create "app" ⟨"/first"⟩ with
        sourceFiles := [⟨"/first/widget.h"⟩]
        discovered := true
        configurations := [Configuration.empty ⟨.win64, .vs2022, .debug⟩] }
      tools := [.qt (.create ⟨"/qt"⟩ ⟨"/first/moc"⟩)] },
    { project := { Project.create "app" ⟨"/second"⟩ with
        discovered := true
        configurations := [Configuration.empty ⟨.win64, .vs2022, .debug⟩] }
      tools := [] }]

def namesakesFiles : FileSystem where
  workingDirectory := []
  entries := [
    (["first"], .directory),
    (["first", "widget.h"], .file [0x51, 0x5F, 0x4F, 0x42, 0x4A, 0x45, 0x43, 0x54])]

/-- Dependencies are resolved, and yet the step on the header belongs to a configuration that is
not. -/
theorem generate_unresolved_namesakes :
    (namesakes.generate namesakesFiles).result =
        .error (.unresolvedConfiguration "app" ⟨.win64, .vs2022, .debug⟩) ∧
      ∃ o, namesakes.collect namesakesFiles = .ok o ∧
        (resolveDependencies (o.collected.map (·.project))).1 = .ok () := by
  have hresult : (namesakes.generate namesakesFiles).result =
      .error (.unresolvedConfiguration "app" ⟨.win64, .vs2022, .debug⟩) := by decide +kernel
  obtain ⟨o, _, _, hcollect, hresolve, -⟩ := phases_of_unresolved hresult
  exact ⟨hresult, o, hcollect, congrArg Prod.fst hresolve⟩

end Solution

end BuildSteps
