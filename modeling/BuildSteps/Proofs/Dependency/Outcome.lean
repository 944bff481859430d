import BuildSteps.Proofs.Dependency.Permutation
import BuildSteps.Proofs.Dependency.Success

/-!
# How a resolution ends

Validation looks at every dependency before anything is changed, and so does the search for a build
order. Only what is left, a configuration that reaches a project without its target, ends the
resolution in the middle.
-/

namespace BuildSteps

inductive BuildError.OfUnknownName : BuildError → Prop
  | project (name : String) : OfUnknownName (.unknownProject name)
  | dependency (name dependent : String) : OfUnknownName (.unknownDependency name dependent)

namespace Resolution

variable {projects : List Project}

/-! ## 1. What can be wrong -/

def Dangling (projects : List Project) : Prop :=
  ∃ project ∈ projects, ∃ conf ∈ project.configurations, ∃ dependency ∈ conf.dependencies,
    dependency ∉ projects.map (·.name)

def Cyclic (projects : List Project) : Prop :=
  ∃ name, Relation.TransGen (DependsOn projects) name name

/-- Whether a configuration reaches, through dependencies for its own target, a project that has no
configuration for this target. -/
def Misses (projects : List Project) (conf : Configuration) (source : Project) : Prop :=
  source ∈ projects ∧
    Reachable (dependenciesOf? projects conf.target) conf.dependencies source.name ∧
    source.configuration? conf.target = none

def Incomplete (projects : List Project) : Prop :=
  ∃ project ∈ projects, ∃ conf ∈ project.configurations, ∃ source, Misses projects conf source

theorem configurationOf?_of_mem (distinct : (projects.map (·.name)).Nodup) {source : Project}
    (h : source ∈ projects) (target : Target) :
    configurationOf? projects target source.name = source.configuration? target := by
  rw [configurationOf?, (find?_name_eq_some_iff distinct).2 ⟨h, rfl⟩, Option.bind_some]

theorem dependsOn_iff (distinct : (projects.map (·.name)).Nodup) {name dependency : String} :
    DependsOn projects name dependency ↔
      ∃ project ∈ projects, project.name = name ∧
        ∃ conf ∈ project.configurations, dependency ∈ conf.dependencies := by
  simp only [DependsOn, find?_name_eq_some_iff distinct, and_assoc]

/-- Where no dependency dangles, every name that a configuration reaches is that of a project. -/
theorem mem_names_of_reachable (h : ¬ Dangling projects) {project : Project}
    (hproject : project ∈ projects) {conf : Configuration} (hconf : conf ∈ project.configurations)
    {target : Target} {name : String}
    (hname : Reachable (dependenciesOf? projects target) conf.dependencies name) :
    name ∈ projects.map (·.name) := by
  by_contra hnot
  cases hname with
  | start hmem => exact h ⟨project, hproject, conf, hconf, name, hmem, hnot⟩
  | step _ hnext hmem =>
    -- what leads to the name is a dependency of a project too
    obtain ⟨via, hvia, rfl⟩ := Option.map_eq_some_iff.1 hnext
    obtain ⟨other, hfind, hother⟩ := Option.bind_eq_some_iff.1 hvia
    exact h ⟨other, List.mem_reverse.1 (List.mem_of_find?_eq_some hfind), via,
      List.mem_of_find?_eq_some hother, name, hmem, hnot⟩

/-- A configuration that takes over from all it reaches misses nothing. -/
theorem TakesOver.not_misses (distinct : (projects.map (·.name)).Nodup) {conf conf' : Configuration}
    (h : TakesOver projects conf conf') (source : Project) : ¬ Misses projects conf source := by
  rintro ⟨hsource, hreach, hnone⟩
  obtain ⟨names, sources, hwalk, -, -, -, -⟩ := h
  obtain ⟨below, hbelow, -⟩ := hwalk.closed (hwalk.mem_iff_reachable.2 hreach) List.not_mem_nil
  rw [dependenciesOf?, configurationOf?_of_mem distinct hsource, hnone] at hbelow
  cases hbelow

theorem takesOverAll_iff {project project' : Project} :
    TakesOverAll projects project project' ↔
      ∃ confs, project' = { project with configurations := confs } ∧
        List.Forall₂ (TakesOver projects) project.configurations confs := by
  constructor
  · rintro ⟨confs, rfl, hconfs⟩
    exact ⟨confs, rfl, hconfs.imp fun _ _ h => h.1⟩
  · rintro ⟨confs, rfl, hconfs⟩
    exact ⟨confs, rfl, hconfs.imp fun _ _ h => ⟨h, h.addsOnlyPublic⟩⟩

theorem ResolvedTo.takesOverAll {project project' : Project}
    (h : ResolvedTo projects project project') : TakesOverAll projects project project' := by
  obtain ⟨confs, rfl, hconfs⟩ := h
  exact takesOverAll_iff.2 ⟨confs, rfl, hconfs.imp fun _ _ => takesOver_of_resolveConfiguration⟩

/-- Where all projects take over what they reach, no configuration misses a project. -/
theorem not_incomplete_of_takesOverAll (distinct : (projects.map (·.name)).Nodup)
    {resolved : List Project} (h : List.Forall₂ (TakesOverAll projects) projects resolved) :
    ¬ Incomplete projects := by
  rintro ⟨project, hproject, conf, hconf, source, hmisses⟩
  obtain ⟨_, -, hproject'⟩ := h.exists_of_mem hproject
  obtain ⟨confs, -, hconfs⟩ := takesOverAll_iff.1 hproject'
  obtain ⟨conf', -, htakes⟩ := hconfs.exists_of_mem hconf
  exact htakes.not_misses distinct source hmisses

/-! ## 2. Visits that fail -/

/-- A visit fails at a name it reaches: that of no project, or that of one without the target. The
induction is on the steps; what is pending stays within reach. -/
theorem exists_of_visit_error {target : Target} {steps : Nat} {seen : List Nat}
    {pending : List String} {e : BuildError}
    (h : visit projects target steps seen pending = .error e) :
    ∃ name, Reachable (dependenciesOf? projects target) pending name ∧
      (name ∉ projects.map (·.name) ∨
        e = .missingConfiguration name target ∧
          ∃ source ∈ projects, source.name = name ∧ source.configuration? target = none) := by
  induction steps generalizing seen pending with
  | zero => cases h
  | succ steps ih =>
    match pending with
    | [] => cases h
    | name :: pending =>
      rw [visit] at h
      split at h
      · next hi => exact ⟨name, .start List.mem_cons_self, .inl (indexOf?_eq_none hi)⟩
      · next i hi =>
        obtain ⟨source, hsource, hname, -⟩ := indexOf?_eq_some hi
        split at h
        · obtain ⟨other, hreach, hcause⟩ := ih h
          exact ⟨other, hreach.mono (List.subset_cons_self _ _), hcause⟩
        · split at h
          · next hnone =>
            rw [hsource, Option.bind_some] at hnone
            exact ⟨name, .start List.mem_cons_self, .inr ⟨(Except.error.inj h).symm, source,
              List.mem_of_getElem? hsource, hname, hnone⟩⟩
          · next conf hconf =>
            obtain ⟨other, hreach, hcause⟩ := ih h
            refine ⟨other, hreach.trans fun next hnext => ?_, hcause⟩
            -- what the project at the name brings is one step away from it
            rcases List.mem_append.1 hnext with hnew | hold
            · refine .step (.start List.mem_cons_self) ?_ hnew
              rw [dependenciesOf?, configurationOf?_eq target hi, hconf, Option.map_some]
            · exact .start (List.mem_cons_of_mem _ hold)

/-- Where no dependency dangles, a configuration takes over from all it reaches or misses some
project, which the error names. -/
theorem misses_of_resolveConfiguration_error (h : ¬ Dangling projects) {project : Project}
    (hproject : project ∈ projects) {conf : Configuration} (hconf : conf ∈ project.configurations)
    {e : BuildError} (herror : resolveConfiguration projects conf = .error e) :
    ∃ source, Misses projects conf source ∧
      e = .missingConfiguration source.name conf.target := by
  rw [resolveConfiguration] at herror
  split at herror
  · next hvisit =>
    obtain rfl := Except.error.inj herror
    obtain ⟨name, hreach, hunknown | ⟨rfl, source, hsource, rfl, hnone⟩⟩ :=
      exists_of_visit_error hvisit
    · exact absurd (mem_names_of_reachable h hproject hconf hreach) hunknown
    · exact ⟨source, ⟨hsource, hreach, hnone⟩, rfl⟩
  · cases herror

/-! ## 3. Where a resolution stops -/

/-- The first configurations of a list have been resolved; at the next one the resolution fails and
leaves it and those behind it. -/
theorem resolveConfigurations_error {confs changed : List Configuration} {e : BuildError}
    (h : resolveConfigurations projects confs = (.error e, changed)) :
    ∃ index conf done, confs[index]? = some conf ∧ resolveConfiguration projects conf = .error e ∧
      List.Forall₂ (fun conf conf' => resolveConfiguration projects conf = .ok conf')
        (confs.take index) done ∧
      changed = done ++ confs.drop index := by
  induction confs generalizing changed with
  | nil => cases h
  | cons conf confs ih =>
    rw [resolveConfigurations] at h
    split at h
    · next hconf =>
      cases h
      exact ⟨0, conf, [], rfl, hconf, .nil, rfl⟩
    · next first hfirst =>
      obtain ⟨hrest, rfl⟩ := Prod.mk.inj h
      obtain ⟨index, failing, done, hfailing, herror, hdone, hchanged⟩ := ih (Prod.ext hrest rfl)
      exact ⟨index + 1, failing, first :: done, hfailing, herror, .cons hfirst hdone,
        congrArg (first :: ·) hchanged⟩

theorem resolveProject_error {changed : List Project} {i : Nat} {project : Project}
    {e : BuildError} (hproject : projects[i]? = some project)
    (h : resolveProject projects i = (.error e, changed)) :
    ∃ index conf done, project.configurations[index]? = some conf ∧
      resolveConfiguration projects conf = .error e ∧
      List.Forall₂ (fun conf conf' => resolveConfiguration projects conf = .ok conf')
        (project.configurations.take index) done ∧
      changed = projects.set i
        { project with configurations := done ++ project.configurations.drop index } := by
  rw [resolveProject_eq hproject] at h
  obtain ⟨hresult, rfl⟩ := Prod.mk.inj h
  have hstep : resolveConfigurations projects project.configurations =
      (.error e, (resolveConfigurations projects project.configurations).2) := Prod.ext hresult rfl
  obtain ⟨index, conf, done, hconf, herror, hdone, hchanged⟩ := resolveConfigurations_error hstep
  exact ⟨index, conf, done, hconf, herror, hdone, by rw [hchanged]⟩

/-- A resolution that fails has resolved the projects before the one it fails at. -/
theorem resolveAll_error {names : List String} {changed : List Project} {e : BuildError}
    (h : resolveAll names projects = (.error e, changed)) :
    ∃ before name after between i, names = before ++ name :: after ∧
      resolveAll before projects = (.ok (), between) ∧ indexOf? projects name = some i ∧
      resolveProject between i = (.error e, changed) := by
  induction names generalizing projects with
  | nil => cases h
  | cons name names ih =>
    rw [resolveAll] at h
    split at h
    · next hnone =>
      obtain ⟨before, failing, after, between, i, rfl, hbefore, hi, hfails⟩ := ih h
      refine ⟨name :: before, failing, after, between, i, rfl, ?_, hi, hfails⟩
      rw [resolveAll, hnone]
      exact hbefore
    · next j hj =>
      split at h
      · next hstep =>
        cases h
        exact ⟨[], name, names, projects, j, rfl, rfl, hj, hstep⟩
      · next first hstep =>
        obtain ⟨before, failing, after, between, i, rfl, hbefore, hi, hfails⟩ := ih h
        have hoffer := offer_of_resolveProject projects j
        rw [hstep] at hoffer
        refine ⟨name :: before, failing, after, between, i, rfl, ?_,
          (indexOf?_congr hoffer.symm failing).trans hi, hfails⟩
        rw [resolveAll, hj]
        simp only [hstep]
        exact hbefore

/-- Where a resolution stops: at a configuration of a project, after the names of some projects and
before those of the others. -/
structure Stop where
  before : List String
  project : Project
  after : List String
  /-- The position of the configuration in its project. -/
  index : Nat
  conf : Configuration

/-- What a resolution that stops has made of a project. -/
structure Stop.Leaves (stop : Stop) (projects : List Project) (project project' : Project) :
    Prop where
  before : project.name ∈ stop.before → ResolvedTo projects project project'
  here : project = stop.project → ∃ done,
    project' = { project with configurations := done ++ project.configurations.drop stop.index } ∧
    List.Forall₂ (fun conf conf' => resolveConfiguration projects conf = .ok conf')
      (project.configurations.take stop.index) done
  after : project.name ∉ stop.before → project ≠ stop.project → project' = project

/-- A resolution stops at a configuration that cannot be resolved. What is left then has been
resolved before it, or not been touched. -/
theorem exists_stop (distinct : (projects.map (·.name)).Nodup) {names : List String}
    (hnodup : names.Nodup) {changed : List Project} {e : BuildError}
    (h : resolveAll names projects = (.error e, changed)) :
    ∃ stop : Stop, names = stop.before ++ stop.project.name :: stop.after ∧
      stop.project ∈ projects ∧ stop.project.configurations[stop.index]? = some stop.conf ∧
      resolveConfiguration projects stop.conf = .error e ∧
      List.Forall₂ (stop.Leaves projects) projects changed := by
  obtain ⟨before, name, after, between, i, rfl, hbefore, hi, hfails⟩ := resolveAll_error h
  have hoffer := offer_of_resolveAll before projects
  rw [hbefore] at hoffer
  obtain ⟨hnames, -, hapart⟩ := List.nodup_append.1 hnodup
  obtain ⟨hlength, hall⟩ := resolveAll_ok hnames hbefore
  obtain ⟨failing, hfailing, rfl, -⟩ := indexOf?_eq_some hi
  -- the failing project is reached as it was
  have hfresh : i ∉ positions projects before := fun hmem =>
    hapart _ ((mem_positions hi).1 hmem) _ List.mem_cons_self rfl
  obtain ⟨reached, hreached, -, hsame⟩ := hall i failing hfailing
  obtain rfl := hsame hfresh
  obtain ⟨index, conf, done, hconf, herror, hdone, rfl⟩ := resolveProject_error hreached hfails
  simp only [resolveConfiguration_congr hoffer] at hdone herror
  refine ⟨⟨before, reached, after, index, conf⟩, rfl, List.mem_of_getElem? hfailing, hconf, herror,
    .of_forall_getElem? (by rw [List.length_set, hlength]) fun j project hj => ?_⟩
  by_cases hij : i = j
  · subst hij
    obtain rfl := Option.some.inj (hfailing.symm.trans hj)
    refine ⟨_, List.getElem?_set_self (List.getElem?_eq_some_iff.1 hreached).1, ?_, ?_, ?_⟩
    · exact fun hmem => absurd ((mem_positions hi).2 hmem) hfresh
    · exact fun _ => ⟨done, rfl, hdone⟩
    · exact fun _ hne => absurd rfl hne
  · have hposition := indexOf?_of_nodup distinct hj
    obtain ⟨project', hproject', hin, hout⟩ := hall j project hj
    refine ⟨project', by rw [List.getElem?_set_ne hij, hproject'], ?_, ?_, ?_⟩
    · exact fun hmem => hin ((mem_positions hposition).2 hmem)
    -- a project stands at one position only
    · rintro rfl
      exact absurd (Option.some.inj (hi.symm.trans hposition)) hij
    · exact fun hmem _ => hout fun hmem' => hmem ((mem_positions hposition).1 hmem')

/-! ## 4. The outcome -/

structure Stop.In (stop : Stop) (projects : List Project) (source : Project) : Prop where
  order : (DependencyGraph.ofProjects projects).buildOrder =
    .ok (stop.before ++ stop.project.name :: stop.after)
  listed : stop.project ∈ projects
  conf : stop.project.configurations[stop.index]? = some stop.conf
  misses : Misses projects stop.conf source

inductive Outcome (projects : List Project) : Except BuildError Unit × List Project → Prop
  | dangling {e : BuildError} :
    Dangling projects → e.OfUnknownName → Outcome projects (.error e, projects)
  | cyclic (cycle : Option (List String)) :
    ¬ Dangling projects → Cyclic projects →
      Outcome projects (.error (.circularDependency cycle), projects)
  | incomplete {stop : Stop} {source : Project} {changed : List Project} :
    ¬ Dangling projects → ¬ Cyclic projects → stop.In projects source →
      List.Forall₂ (stop.Leaves projects) projects changed →
      Outcome projects (.error (.missingConfiguration source.name stop.conf.target), changed)
  | complete {resolved : List Project} :
    ¬ Dangling projects → ¬ Cyclic projects → ¬ Incomplete projects →
      List.Forall₂ (ResolvedTo projects) projects resolved → Outcome projects (.ok (), resolved)

theorem validate_iff (distinct : (projects.map (·.name)).Nodup) :
    (DependencyGraph.ofProjects projects).validate = .ok () ↔ ¬ Dangling projects := by
  rw [DependencyGraph.validate_ok_iff, Dangling]
  simp only [DependencyGraph.dependsOn_ofProjects, dependsOn_iff distinct,
    DependencyGraph.mem_names_ofProjects]
  constructor
  · rintro h ⟨project, hproject, conf, hconf, dependency, hmem, hnot⟩
    exact hnot (h project.name dependency ⟨project, hproject, rfl, conf, hconf, hmem⟩)
  · rintro h _ dependency ⟨project, hproject, rfl, conf, hconf, hmem⟩
    by_contra hnot
    exact h ⟨project, hproject, conf, hconf, dependency, hmem, hnot⟩

theorem outcome_resolveDependencies (distinct : (projects.map (·.name)).Nodup) :
    Outcome projects (resolveDependencies projects) := by
  by_cases hdangling : Dangling projects
  · have hinvalid := mt (validate_iff distinct).1 (not_not.2 hdangling)
    rw [resolveDependencies]
    rw [DependencyGraph.validate] at hinvalid ⊢
    split at hinvalid
    · exact .dangling hdangling (.dependency _ _)
    · exact absurd rfl hinvalid
  · have hvalid := (validate_iff distinct).2 hdangling
    cases horder : (DependencyGraph.ofProjects projects).buildOrder with
    | error e =>
      obtain ⟨hcyclic, cycle, rfl⟩ := DependencyGraph.buildOrder_error hvalid horder
      rw [resolveDependencies, hvalid]
      simp only [horder]
      exact .cyclic cycle hdangling hcyclic
    | ok order =>
      have hnotcyclic : ¬ Cyclic projects :=
        not_exists.2 (DependencyGraph.isBuildOrder_of_buildOrder horder).acyclic
      have hrun : resolveDependencies projects = resolveAll order projects := by
        rw [resolveDependencies, hvalid]
        simp only [horder]
      cases hresult : resolveDependencies projects with
      | mk result changed =>
        cases result with
        | error e =>
          obtain ⟨stop, rfl, hlisted, hconf, herror, hleaves⟩ :=
            exists_stop distinct (DependencyGraph.buildOrder_nodup horder)
              (hrun.symm.trans hresult)
          obtain ⟨source, hmisses, rfl⟩ := misses_of_resolveConfiguration_error hdangling hlisted
            (List.mem_of_getElem? hconf) herror
          exact .incomplete hdangling hnotcyclic ⟨horder, hlisted, hconf, hmisses⟩ hleaves
        | ok =>
          have hall := resolveAll_of_buildOrder distinct hresult
          exact .complete hdangling hnotcyclic
            (not_incomplete_of_takesOverAll distinct (hall.imp fun _ _ => ResolvedTo.takesOverAll))
            hall

end Resolution

end BuildSteps
