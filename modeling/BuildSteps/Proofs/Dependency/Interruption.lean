import BuildSteps.Proofs.Dependency.Outcome

/-!
# Resolutions that stop in the middle

What a resolution has treated when it stops depends on nothing else, so that it makes a list of
projects of its own: resolving just these succeeds and gives what the stop has left of them.
-/

namespace BuildSteps.Resolution

variable {projects others : List Project} {stop : Stop} {source : Project}

/-! ## 1. Lists that agree on some projects -/

structure AgreeOn (names : List String) (projects others : List Project) : Prop where
  same : ∀ name ∈ names, ∀ target,
    configurationOf? others target name = configurationOf? projects target name
  closed : ∀ name ∈ names, ∀ target below,
    dependenciesOf? projects target name = some below → below ⊆ names

theorem AgreeOn.symm {names : List String} (h : AgreeOn names projects others) :
    AgreeOn names others projects where
  same name hname target := (h.same name hname target).symm
  closed name hname target below hbelow := by
    rw [dependenciesOf?, h.same name hname] at hbelow
    exact h.closed name hname target below hbelow

theorem TakesOver.of_agreeOn {names : List String} {conf conf' : Configuration}
    (h : TakesOver projects conf conf') (hagree : AgreeOn names projects others)
    (hconf : conf.dependencies ⊆ names) : TakesOver others conf conf' := by
  obtain ⟨visited, sources, hwalk, hnodup, hreach, hsources, rfl⟩ := h
  have hinside : ∀ name ∈ visited, name ∈ names := fun name hname =>
    ((hreach name).1 hname).mem_of_closed hconf fun other hother =>
      hagree.closed other hother conf.target
  have hwalk' : Preorder (dependenciesOf? others conf.target) [] conf.dependencies visited :=
    hwalk.congr fun name hname => by
      rw [dependenciesOf?, hagree.same name (hinside name hname), dependenciesOf?]
  refine ⟨visited, sources, hwalk', hnodup, fun name => hwalk'.mem_iff_reachable, ?_, rfl⟩
  rw [← hsources]
  exact List.map_congr_left fun name hname => hagree.same name (hinside name hname) conf.target

theorem rightUnique_takesOver : Relator.RightUnique (TakesOver projects) := by
  intro conf first second h h'
  obtain ⟨names, sources, hwalk, -, -, hsources, rfl⟩ := h
  obtain ⟨names', sources', hwalk', -, -, hsources', rfl⟩ := h'
  obtain rfl := hwalk.unique hwalk'
  rw [List.map_injective_iff.2 (Option.some_injective _) (hsources.symm.trans hsources')]

theorem TakesOverAll.of_agreeOn {names : List String} {project project' : Project}
    (h : TakesOverAll projects project project') (hagree : AgreeOn names projects others)
    (hconfs : ∀ conf ∈ project.configurations, conf.dependencies ⊆ names) :
    TakesOverAll others project project' := by
  obtain ⟨confs, rfl, hall⟩ := takesOverAll_iff.1 h
  refine takesOverAll_iff.2 ⟨confs, rfl, ?_⟩
  have hboth := (List.forall₂_and_left _ _).2 ⟨hconfs, hall⟩
  exact hboth.imp fun conf conf' h => h.2.of_agreeOn hagree h.1

theorem rightUnique_takesOverAll : Relator.RightUnique (TakesOverAll projects) := by
  intro project first second h h'
  obtain ⟨confs, rfl, hconfs⟩ := takesOverAll_iff.1 h
  obtain ⟨confs', rfl, hconfs'⟩ := takesOverAll_iff.1 h'
  rw [rightUnique_takesOver.forall₂ hconfs hconfs']

/-! ## 2. What a stop has behind it -/

/-- What a stop has behind it of a project: all of one before it, and of its own project the
configurations before its own. -/
def Stop.keep (stop : Stop) (project : Project) : Option Project :=
  if project.name ∈ stop.before then some project
  else if project.name = stop.project.name then
    some { project with configurations := project.configurations.take stop.index }
  else none

def Stop.part (stop : Stop) (projects : List Project) : List Project := projects.filterMap stop.keep

namespace Stop

theorem keep_of_mem {project : Project} (h : project.name ∈ stop.before) :
    stop.keep project = some project :=
  if_pos h

/-- What is kept of a project has its name and only configurations that it has. -/
theorem of_keep {project kept : Project} (h : stop.keep project = some kept) :
    kept.name = project.name ∧ (∀ conf ∈ kept.configurations, conf ∈ project.configurations) ∧
      (project.name ∈ stop.before ∨ project.name = stop.project.name) := by
  rw [keep] at h
  split at h
  · next hbefore =>
    obtain rfl := Option.some.inj h
    exact ⟨rfl, fun _ => id, .inl hbefore⟩
  · split at h
    · next hhere =>
      obtain rfl := Option.some.inj h
      exact ⟨rfl, fun _ => List.mem_of_mem_take, .inr hhere⟩
    · cases h

theorem mem_part_of_mem {project : Project} (h : project ∈ projects)
    (hbefore : project.name ∈ stop.before) : project ∈ stop.part projects :=
  List.mem_filterMap.2 ⟨project, h, keep_of_mem hbefore⟩

theorem nodup_names_part (distinct : (projects.map (·.name)).Nodup) :
    ((stop.part projects).map (·.name)).Nodup := by
  have hsub : ((stop.part projects).map (·.name)).Sublist (projects.map (·.name)) := by
    clear distinct
    induction projects with
    | nil => exact .slnil
    | cons project projects ih =>
      rw [part, List.filterMap_cons]
      cases hkeep : stop.keep project with
      | none => exact ih.trans (List.sublist_cons_self _ _)
      | some kept =>
        rw [List.map_cons, List.map_cons, (of_keep hkeep).1]
        exact ih.cons_cons _
  exact distinct.sublist hsub

namespace In

/-- The names before a stop, that of its project and those after it are all different. -/
theorem apart (h : stop.In projects source) :
    stop.project.name ∉ stop.before ∧ stop.project.name ∉ stop.after ∧
      ∀ name ∈ stop.after, name ∉ stop.before := by
  obtain ⟨-, hrest, hapart⟩ :=
    List.nodup_append.1 (DependencyGraph.buildOrder_nodup h.order)
  exact ⟨fun hmem => hapart _ hmem _ List.mem_cons_self rfl, (List.nodup_cons.1 hrest).1,
    fun name hafter hbefore => hapart _ hbefore _ (List.mem_cons_of_mem _ hafter) rfl⟩

theorem exists_of_mem (h : stop.In projects source) {name : String} (hname : name ∈ stop.before) :
    ∃ project ∈ projects, project.name = name :=
  List.mem_map.1 ((DependencyGraph.mem_buildOrder h.order).1 (List.mem_append_left _ hname))

theorem mem_before (h : stop.In projects source) {name dependency : String}
    (hname : name ∈ stop.before ∨ name = stop.project.name)
    (hdepends : DependsOn projects name dependency) : dependency ∈ stop.before := by
  have hlt := (DependencyGraph.isBuildOrder_of_buildOrder h.order).respects hdepends
  have hle : (stop.before ++ stop.project.name :: stop.after).idxOf name ≤ stop.before.length := by
    rcases hname with hmem | rfl
    · rw [List.idxOf_append_of_mem hmem]
      exact (List.idxOf_lt_length_of_mem hmem).le
    · rw [List.idxOf_append_of_notMem h.apart.1, List.idxOf_cons_self, Nat.add_zero]
  by_contra hnot
  rw [List.idxOf_append_of_notMem hnot] at hlt
  omega

theorem agreeOn (h : stop.In projects source) (distinct : (projects.map (·.name)).Nodup) :
    AgreeOn stop.before projects (stop.part projects) where
  same name hname target := by
    obtain ⟨project, hproject, rfl⟩ := h.exists_of_mem hname
    rw [configurationOf?_of_mem distinct hproject,
      configurationOf?_of_mem (nodup_names_part distinct) (mem_part_of_mem hproject hname)]
  closed name hname target below hbelow dependency hmem := by
    obtain ⟨conf, hconf, rfl⟩ := Option.map_eq_some_iff.1 hbelow
    obtain ⟨project, hfind, hfound⟩ := Option.bind_eq_some_iff.1 hconf
    exact h.mem_before (.inl hname)
      ⟨project, hfind, conf, List.mem_of_find?_eq_some hfound, hmem⟩

theorem dependencies_subset (h : stop.In projects source)
    (distinct : (projects.map (·.name)).Nodup) {project : Project}
    (hproject : project ∈ stop.part projects) {conf : Configuration}
    (hconf : conf ∈ project.configurations) : conf.dependencies ⊆ stop.before := by
  obtain ⟨whole, hwhole, hkeep⟩ := List.mem_filterMap.1 hproject
  obtain ⟨-, hconfs, hplace⟩ := of_keep hkeep
  exact fun dependency hmem => h.mem_before hplace
    ((dependsOn_iff distinct).2 ⟨whole, hwhole, rfl, conf, hconfs conf hconf, hmem⟩)

/-- Projects of the part take over the same from the part as from all projects. -/
theorem takesOverAll_part_iff (h : stop.In projects source)
    (distinct : (projects.map (·.name)).Nodup) {project project' : Project}
    (hproject : project ∈ stop.part projects) :
    TakesOverAll (stop.part projects) project project' ↔
      TakesOverAll projects project project' := by
  have hagree := h.agreeOn distinct
  have hinside : ∀ conf ∈ project.configurations, conf.dependencies ⊆ stop.before :=
    fun conf => h.dependencies_subset distinct hproject
  exact ⟨fun h' => h'.of_agreeOn hagree.symm hinside, fun h' => h'.of_agreeOn hagree hinside⟩

theorem forall₂_part_iff (h : stop.In projects source)
    (distinct : (projects.map (·.name)).Nodup) {resolved : List Project} :
    List.Forall₂ (TakesOverAll (stop.part projects)) (stop.part projects) resolved ↔
      List.Forall₂ (TakesOverAll projects) (stop.part projects) resolved := by
  constructor <;> intro hall <;>
    refine ((List.forall₂_and_left _ _).2 ⟨fun _ => id, hall⟩).imp fun _ _ h' => ?_
  · exact (h.takesOverAll_part_iff distinct h'.1).1 h'.2
  · exact (h.takesOverAll_part_iff distinct h'.1).2 h'.2

/-! The part has none of the defects that make a resolution fail. -/

theorem not_dangling (h : stop.In projects source) (distinct : (projects.map (·.name)).Nodup) :
    ¬ Dangling (stop.part projects) := by
  rintro ⟨project, hproject, conf, hconf, dependency, hmem, hnot⟩
  have hbefore := h.dependencies_subset distinct hproject hconf hmem
  obtain ⟨other, hother, rfl⟩ := h.exists_of_mem hbefore
  exact hnot (List.mem_map_of_mem (mem_part_of_mem hother hbefore))

theorem not_cyclic (distinct : (projects.map (·.name)).Nodup) (hacyclic : ¬ Cyclic projects) :
    ¬ Cyclic (stop.part projects) := by
  rintro ⟨name, hcycle⟩
  refine hacyclic ⟨name, Relation.TransGen.mono (fun first second hdepends => ?_) name name hcycle⟩
  obtain ⟨project, hproject, rfl, conf, hconf, hmem⟩ :=
    (dependsOn_iff (nodup_names_part distinct)).1 hdepends
  obtain ⟨whole, hwhole, hkeep⟩ := List.mem_filterMap.1 hproject
  obtain ⟨hname, hconfs, -⟩ := of_keep hkeep
  exact (dependsOn_iff distinct).2 ⟨whole, hwhole, hname.symm, conf, hconfs conf hconf, hmem⟩

theorem exists_done (h : stop.In projects source) {project' : Project}
    (hleaves : stop.Leaves projects stop.project project') :
    ∃ done, done.length = stop.index ∧
      project' = { stop.project with
        configurations := done ++ stop.project.configurations.drop stop.index } ∧
      List.Forall₂ (TakesOver projects) (stop.project.configurations.take stop.index) done := by
  obtain ⟨done, rfl, hdone⟩ := hleaves.here rfl
  have hindex := (List.getElem?_eq_some_iff.1 h.conf).1
  refine ⟨done, ?_, rfl, hdone.imp fun _ _ => takesOver_of_resolveConfiguration⟩
  rw [← hdone.length_eq, List.length_take_of_le hindex.le]

/-- What is kept of a project was left with what it takes over. -/
theorem keep_rel (h : stop.In projects source) (distinct : (projects.map (·.name)).Nodup)
    {project project' : Project} (hproject : project ∈ projects)
    (hleaves : stop.Leaves projects project project') :
    Option.Rel (TakesOverAll projects) (stop.keep project) (stop.keep project') := by
  by_cases hbefore : project.name ∈ stop.before
  · have hresolved := hleaves.before hbefore
    have hname : project'.name = project.name := by
      obtain ⟨confs, rfl, -⟩ := hresolved
      rfl
    rw [keep_of_mem hbefore, keep_of_mem (hname ▸ hbefore)]
    exact .some hresolved.takesOverAll
  · by_cases hhere : project = stop.project
    · subst hhere
      obtain ⟨done, hlength, rfl, hdone⟩ := h.exists_done hleaves
      rw [keep, keep, if_neg hbefore, if_neg hbefore, if_pos rfl, if_pos rfl, ← hlength,
        List.take_left, hlength]
      exact .some (takesOverAll_iff.2 ⟨done, rfl, hdone⟩)
    · obtain rfl := hleaves.after hbefore hhere
      have hname : project'.name ≠ stop.project.name := fun hname =>
        hhere (List.inj_on_of_nodup_map distinct hproject h.listed hname)
      rw [keep, if_neg hbefore, if_neg hname]
      exact .none

/-- What the stop leaves of its part is what the part takes over from all projects. -/
theorem forall₂_part (h : stop.In projects source) (distinct : (projects.map (·.name)).Nodup)
    {changed : List Project} (hleaves : List.Forall₂ (stop.Leaves projects) projects changed) :
    List.Forall₂ (TakesOverAll projects) (stop.part projects) (stop.part changed) :=
  List.rel_filterMap (fun _ _ h' => h.keep_rel distinct h'.1 h'.2)
    ((List.forall₂_and_left _ _).2 ⟨fun _ hproject => hproject, hleaves⟩)

/-- Resolving just the part gives what the stop leaves of it. -/
theorem resolveDependencies_part (h : stop.In projects source)
    (distinct : (projects.map (·.name)).Nodup) (hacyclic : ¬ Cyclic projects)
    {changed : List Project} (hleaves : List.Forall₂ (stop.Leaves projects) projects changed) :
    resolveDependencies (stop.part projects) = (.ok (), stop.part changed) := by
  have hpart := h.forall₂_part distinct hleaves
  have hincomplete : ¬ Incomplete (stop.part projects) :=
    not_incomplete_of_takesOverAll (nodup_names_part distinct)
      ((h.forall₂_part_iff distinct).2 hpart)
  cases hresult : resolveDependencies (stop.part projects) with
  | mk result resolved =>
    have houtcome : Outcome (stop.part projects) (resolveDependencies (stop.part projects)) :=
      outcome_resolveDependencies (nodup_names_part distinct)
    rw [hresult] at houtcome
    cases houtcome with
    | dangling hdangling _ => exact absurd hdangling (h.not_dangling distinct)
    | cyclic _ _ hcyclic => exact absurd hcyclic (not_cyclic distinct hacyclic)
    | incomplete _ _ hin _ =>
      exact absurd ⟨_, hin.listed, _, List.mem_of_getElem? hin.conf, _, hin.misses⟩ hincomplete
    | complete _ _ _ hresolved =>
      -- what the part takes over from itself it takes over from all projects
      have hall := (h.forall₂_part_iff distinct).1
        (hresolved.imp fun _ _ => ResolvedTo.takesOverAll)
      rw [rightUnique_takesOverAll.forall₂ hall hpart]

end In

/-! ## 3. What a stop commits -/

/-- What has become of a project at a stop. One before it has taken over all there is. Its own one
has done so in the configurations before that of the stop, which is as it was, like those behind it
and the projects after it. -/
structure Commits (stop : Stop) (projects : List Project) (project project' : Project) : Prop where
  before : project.name ∈ stop.before → TakesOverAll projects project project'
  here : project = stop.project → ∃ done, done.length = stop.index ∧
    project' = { project with configurations := done ++ project.configurations.drop stop.index } ∧
    List.Forall₂ (TakesOver projects) (project.configurations.take stop.index) done
  after : project.name ∈ stop.after → project' = project

theorem Leaves.commits {project project' : Project}
    (hleaves : stop.Leaves projects project project') (h : stop.In projects source) :
    stop.Commits projects project project' where
  before hmem := (hleaves.before hmem).takesOverAll
  here hhere := by
    subst hhere
    exact h.exists_done hleaves
  after hmem := by
    obtain ⟨-, hproject, hbefore⟩ := h.apart
    refine hleaves.after (hbefore _ hmem) ?_
    rintro rfl
    exact hproject hmem

end Stop

/-- **Failure is exact and leaves whole projects.** Where every project has its own name, resolution
reports an unknown name just when some dependency names no project, else a cycle just when there is
one, and else a missing configuration just when some configuration reaches a project without its
target; it succeeds in all other cases. With one of the first two errors no project changes. With
the last one the projects before the failing one in build order, and the configurations before the
failing one in its project, are what resolving just these makes of them, and all others are as they
were. -/
theorem resolveDependencies_failure (distinct : (projects.map (·.name)).Nodup) :
    ((∃ e, (resolveDependencies projects).1 = .error e ∧ e.OfUnknownName) ↔ Dangling projects) ∧
    ((∃ cycle, (resolveDependencies projects).1 = .error (.circularDependency cycle)) ↔
      ¬ Dangling projects ∧ Cyclic projects) ∧
    ((∃ name target,
        (resolveDependencies projects).1 = .error (.missingConfiguration name target)) ↔
      ¬ Dangling projects ∧ ¬ Cyclic projects ∧ Incomplete projects) ∧
    ((resolveDependencies projects).1 = .ok () ↔
      ¬ Dangling projects ∧ ¬ Cyclic projects ∧ ¬ Incomplete projects) ∧
    (Dangling projects ∨ Cyclic projects → (resolveDependencies projects).2 = projects) ∧
    ∀ name target, (resolveDependencies projects).1 = .error (.missingConfiguration name target) →
      ∃ (stop : Stop) (source : Project), stop.In projects source ∧
        source.name = name ∧ stop.conf.target = target ∧
        resolveDependencies (stop.part projects) =
          (.ok (), stop.part (resolveDependencies projects).2) ∧
        List.Forall₂ (stop.Commits projects) projects (resolveDependencies projects).2 := by
  have houtcome := outcome_resolveDependencies distinct
  generalize resolveDependencies projects = outcome at houtcome ⊢
  cases houtcome with
  | dangling hdangling hunknown =>
    cases hunknown <;>
      simp [hdangling, BuildError.OfUnknownName.project, BuildError.OfUnknownName.dependency]
  | cyclic cycle hdangling hcyclic =>
    have hknown : ¬ (BuildError.circularDependency cycle).OfUnknownName := nofun
    simp [hdangling, hcyclic, hknown]
  | @incomplete stop source changed hdangling hcyclic hin hleaves =>
    have hknown : ¬ (BuildError.missingConfiguration source.name stop.conf.target).OfUnknownName :=
      nofun
    have hincomplete : Incomplete projects :=
      ⟨_, hin.listed, _, List.mem_of_getElem? hin.conf, source, hin.misses⟩
    refine ⟨by simp [hdangling, hknown], by simp [hcyclic],
      by simp [hdangling, hcyclic, hincomplete], by simp [hincomplete],
      by simp [hdangling, hcyclic], fun name target herror => ?_⟩
    obtain ⟨rfl, rfl⟩ : source.name = name ∧ stop.conf.target = target := by simpa using herror
    exact ⟨stop, source, hin, rfl, rfl, hin.resolveDependencies_part distinct hcyclic hleaves,
      hleaves.imp fun _ _ h => h.commits hin⟩
  | complete hdangling hcyclic hincomplete hresolved =>
    simp [hdangling, hcyclic, hincomplete]

def staggered : List Project :=
  [{ Project.create "app" ⟨"/app"⟩ with
      configurations := [
        { Configuration.empty ⟨.win64, .vs2022, .release⟩ with dependencies := ["core"] },
        { Configuration.empty ⟨.win64, .vs2022, .debug⟩ with dependencies := ["base", "core"] }] },
    { Project.create "core" ⟨"/core"⟩ with
      configurations := [{ Configuration.empty ⟨.win64, .vs2022, .release⟩ with
        exportDefines := ["CORE_API"] }] },
    { Project.create "base" ⟨"/base"⟩ with
      configurations := [Configuration.empty ⟨.win64, .vs2022, .debug⟩] }]

theorem resolveDependencies_failure_staggered :
    (staggered.map (·.name)).Nodup ∧
      (resolveDependencies staggered).1 =
        .error (.missingConfiguration "core" ⟨.win64, .vs2022, .debug⟩) ∧
      (¬ Dangling staggered ∧ ¬ Cyclic staggered ∧ Incomplete staggered) ∧
      ∃ (stop : Stop) (source : Project), stop.In staggered source ∧ source.name = "core" ∧
        resolveDependencies (stop.part staggered) =
          (.ok (), stop.part (resolveDependencies staggered).2) := by
  have distinct : (staggered.map (·.name)).Nodup := by decide
  have herror : (resolveDependencies staggered).1 =
      .error (.missingConfiguration "core" ⟨.win64, .vs2022, .debug⟩) := by decide +kernel
  obtain ⟨-, -, hmissing, -, -, hstops⟩ := resolveDependencies_failure distinct
  obtain ⟨stop, source, hin, hname, -, hpart, -⟩ := hstops _ _ herror
  exact ⟨distinct, herror, hmissing.1 ⟨_, _, herror⟩, stop, source, hin, hname, hpart⟩

end BuildSteps.Resolution
