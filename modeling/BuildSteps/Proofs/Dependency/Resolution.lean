import BuildSteps.Proofs.Dependency.BuildOrder
import BuildSteps.Proofs.Dependency.Traversal
import BuildSteps.Proofs.Forall

/-!
# What resolution gives to configurations

Projects are changed one after the other while later ones read earlier ones. Nothing that is read is
ever changed, so that every configuration takes over what the projects offered at the start.
-/

namespace BuildSteps

/-! ## 1. What dependents read -/

/-- The part of a configuration that dependents read. -/
def Configuration.offer (conf : Configuration) : Configuration :=
  { Configuration.empty conf.target with
    includePaths := conf.includePaths
    exportDefines := conf.exportDefines
    dependencies := conf.dependencies }

def Project.offer (project : Project) : Project :=
  { Project.create project.name ⟨""⟩ with
    configurations := project.configurations.map Configuration.offer }

namespace Project

theorem configuration?_offer (project : Project) (target : Target) :
    project.offer.configuration? target = (project.configuration? target).map (·.offer) := by
  rw [configuration?, offer, List.find?_map]
  rfl

end Project

namespace Resolution

@[simp] theorem indexOf?_offer (projects : List Project) (name : String) :
    indexOf? (projects.map Project.offer) name = indexOf? projects name := by
  rw [indexOf?, indexOf?, List.zipIdx_map, ← List.map_reverse, List.find?_map, Option.map_map]
  rfl

theorem bind_configuration?_offer (projects : List Project) (target : Target) (i : Nat) :
    ((projects.map Project.offer)[i]?.bind fun p => p.configuration? target) =
      (projects[i]?.bind fun p => p.configuration? target).map (·.offer) := by
  rw [List.getElem?_map]
  cases projects[i]? with
  | none => rfl
  | some project => exact project.configuration?_offer target

-- the visit reads names and dependencies, and both are on offer
@[simp] theorem visit_offer (projects : List Project) (target : Target) (steps : Nat)
    (seen : List Nat) (pending : List String) :
    visit (projects.map Project.offer) target steps seen pending =
      visit projects target steps seen pending := by
  induction steps generalizing seen pending with
  | zero => rfl
  | succ steps ih =>
    match pending with
    | [] => rfl
    | name :: pending =>
      rw [visit, visit, indexOf?_offer]
      cases indexOf? projects name with
      | none => rfl
      | some i =>
        simp only [bind_configuration?_offer, ih]
        cases projects[i]?.bind (·.configuration? target) <;> rfl

-- the bound counts dependencies, which are on offer
@[simp] theorem visitBound_offer (projects : List Project) (target : Target) (direct : List String) :
    visitBound (projects.map Project.offer) target direct = visitBound projects target direct := by
  rw [visitBound, visitBound, List.map_map]
  congr 3
  apply List.map_congr_left
  intro project _
  simp only [Function.comp_apply, Project.configuration?_offer, Option.map_map]
  rfl

@[simp] theorem configurationsAt_offer (projects : List Project) (target : Target)
    (indices : List Nat) :
    configurationsAt (projects.map Project.offer) target indices =
      (configurationsAt projects target indices).map (·.offer) := by
  rw [configurationsAt, configurationsAt, List.map_filterMap]
  exact List.filterMap_congr fun i _ => bind_configuration?_offer projects target i

/-- A configuration takes over nothing but what the projects offer. -/
theorem resolveConfiguration_offer (projects : List Project) (conf : Configuration) :
    resolveConfiguration (projects.map Project.offer) conf = resolveConfiguration projects conf := by
  rw [resolveConfiguration, resolveConfiguration, transitiveDependencies, transitiveDependencies,
    visitBound_offer, visit_offer]
  cases visit projects conf.target (visitBound projects conf.target conf.dependencies) []
    conf.dependencies with
  | error e => rfl
  | ok indices =>
    simp only [configurationsAt_offer, List.flatMap_map]
    rfl

-- projects that offer the same are read alike: what all later proofs use
theorem resolveConfiguration_congr {projects others : List Project}
    (h : projects.map Project.offer = others.map Project.offer) (conf : Configuration) :
    resolveConfiguration projects conf = resolveConfiguration others conf := by
  rw [← resolveConfiguration_offer, h, resolveConfiguration_offer]

theorem indexOf?_congr {projects others : List Project}
    (h : projects.map Project.offer = others.map Project.offer) (name : String) :
    indexOf? projects name = indexOf? others name := by
  rw [← indexOf?_offer, h, indexOf?_offer]

theorem names_congr {projects others : List Project}
    (h : projects.map Project.offer = others.map Project.offer) :
    projects.map (·.name) = others.map (·.name) := by
  have hnames := congrArg (List.map Project.name) h
  rw [List.map_map, List.map_map] at hnames
  exact hnames

/-! ## 2. What resolution keeps -/

theorem resolveConfiguration_ok {projects : List Project} {conf resolved : Configuration}
    (h : resolveConfiguration projects conf = .ok resolved) :
    ∃ indices, transitiveDependencies projects conf.target conf.dependencies = .ok indices ∧
      resolved = { conf with
        dependenciesIncludePaths := Path.insertAllLast conf.dependenciesIncludePaths
          ((configurationsAt projects conf.target indices).flatMap (·.includePaths))
        defines := conf.defines.insertAllLast
          ((configurationsAt projects conf.target indices).flatMap (·.exportDefines))
        resolved := true } := by
  rw [resolveConfiguration] at h
  split at h
  · cases h
  · next indices hindices => exact ⟨indices, hindices, (Except.ok.inj h).symm⟩

-- resolution changes fields that are not on offer
theorem offer_of_resolveConfigurations (projects : List Project) (confs : List Configuration) :
    (resolveConfigurations projects confs).2.map (·.offer) = confs.map (·.offer) := by
  induction confs with
  | nil => rfl
  | cons conf confs ih =>
    rw [resolveConfigurations]
    split
    · rfl
    · next resolved hresolved =>
      obtain ⟨indices, -, rfl⟩ := resolveConfiguration_ok hresolved
      rw [List.map_cons, List.map_cons, ← ih]
      rfl

theorem resolveProject_eq {projects : List Project} {i : Nat} {project : Project}
    (h : projects[i]? = some project) :
    resolveProject projects i =
      ((resolveConfigurations projects project.configurations).1,
        projects.set i { project with
          configurations := (resolveConfigurations projects project.configurations).2 }) := by
  rw [resolveProject, h]

theorem offer_of_resolveProject (projects : List Project) (i : Nat) :
    (resolveProject projects i).2.map Project.offer = projects.map Project.offer := by
  rw [resolveProject]
  split
  · rfl
  · next project hproject =>
    obtain ⟨hlt, hget⟩ := List.getElem?_eq_some_iff.1 hproject
    -- a project offers what its configurations offer, whatever else they hold
    have hsame : ∀ confs : List Configuration, confs.map (·.offer) =
        project.configurations.map (·.offer) →
        ({ project with configurations := confs } : Project).offer = project.offer := by
      intro confs hconfs
      rw [Project.offer, hconfs]
      rfl
    rw [List.map_set, hsame _ (offer_of_resolveConfigurations projects project.configurations)]
    apply List.ext_getElem?
    intro j
    rw [List.getElem?_set]
    split
    · next hij => rw [← hij, if_pos (by rwa [List.length_map]), List.getElem?_map, hproject]; rfl
    · rfl

/-! ## 3. The whole resolution -/

theorem resolveConfigurations_ok {projects : List Project} {confs resolved : List Configuration}
    (h : resolveConfigurations projects confs = (.ok (), resolved)) :
    List.Forall₂ (fun conf conf' => resolveConfiguration projects conf = .ok conf') confs
      resolved := by
  induction confs generalizing resolved with
  | nil =>
    obtain rfl := (Prod.mk.inj h).2
    exact .nil
  | cons conf confs ih =>
    rw [resolveConfigurations] at h
    split at h
    · cases h
    · next first hfirst =>
      obtain ⟨hrest, rfl⟩ := Prod.mk.inj h
      exact .cons hfirst (ih (Prod.ext hrest rfl))

def ResolvedTo (projects : List Project) (project project' : Project) : Prop :=
  ∃ confs, project' = { project with configurations := confs } ∧
    List.Forall₂ (fun conf conf' => resolveConfiguration projects conf = .ok conf')
      project.configurations confs

theorem ResolvedTo.congr {projects others : List Project} {project project' : Project}
    (h : ResolvedTo projects project project')
    (hoffer : projects.map Project.offer = others.map Project.offer) :
    ResolvedTo others project project' := by
  obtain ⟨confs, rfl, hconfs⟩ := h
  refine ⟨confs, rfl, hconfs.imp fun conf conf' hconf => ?_⟩
  rw [← resolveConfiguration_congr hoffer, hconf]

theorem resolveProject_ok {projects resolved : List Project} {i : Nat} {project : Project}
    (hproject : projects[i]? = some project) (h : resolveProject projects i = (.ok (), resolved)) :
    ∃ project', ResolvedTo projects project project' ∧ resolved = projects.set i project' := by
  rw [resolveProject, hproject] at h
  obtain ⟨hresult, rfl⟩ := Prod.mk.inj h
  exact ⟨_, ⟨_, rfl, resolveConfigurations_ok (Prod.ext hresult rfl)⟩, rfl⟩

/-- Resolving the projects with some names changes those and no other. The induction is on the
names; the projects on the way offer what those at the start do. -/
theorem resolveAll_ok {names : List String} (hnodup : names.Nodup) {projects resolved : List Project}
    (h : resolveAll names projects = (.ok (), resolved)) :
    resolved.length = projects.length ∧
    ∀ (i : Nat) (project : Project), projects[i]? = some project →
      ∃ project', resolved[i]? = some project' ∧
        (i ∈ positions projects names → ResolvedTo projects project project') ∧
        (i ∉ positions projects names → project' = project) := by
  induction names generalizing projects with
  | nil =>
    obtain rfl := (Prod.mk.inj h).2
    exact ⟨rfl, fun i project hi => ⟨project, hi, by simp [positions]⟩⟩
  | cons name names ih =>
    obtain ⟨hname, hrest⟩ := List.nodup_cons.1 hnodup
    rw [resolveAll] at h
    split at h
    · next hnone =>
      have hsame : positions projects (name :: names) = positions projects names := by
        rw [positions, List.filterMap_cons_none hnone, positions]
      rw [hsame]
      exact ih hrest h
    · next j hj =>
      obtain ⟨first, hfirst, -, -⟩ := indexOf?_eq_some hj
      split at h
      · cases h
      · next between hbetween =>
        obtain ⟨first', hresolved, rfl⟩ := resolveProject_ok hfirst hbetween
        have hoffer : (projects.set j first').map Project.offer = projects.map Project.offer := by
          rw [← offer_of_resolveProject projects j, hbetween]
        -- the names that are left stand where they stood before, and none of them at `j`
        have hpositions : positions (projects.set j first') names = positions projects names :=
          List.filterMap_congr fun other _ => indexOf?_congr hoffer other
        have hj' : j ∉ positions projects names := fun hmem => hname ((mem_positions hj).1 hmem)
        obtain ⟨hlength, hall⟩ := ih hrest h
        rw [List.length_set] at hlength
        refine ⟨hlength, fun i project hi => ?_⟩
        simp only [positions_cons hj, List.mem_cons]
        by_cases hij : i = j
        -- the project resolved by this step, to which no later name leads
        · subst hij
          obtain rfl := Option.some.inj (hfirst.symm.trans hi)
          obtain ⟨project', hget, -, hsame⟩ := hall i first'
            (List.getElem?_set_self (List.getElem?_eq_some_iff.1 hi).1)
          rw [hpositions] at hsame
          refine ⟨project', hget, fun _ => ?_, fun hnot => absurd (.inl rfl) hnot⟩
          rw [hsame hj']
          exact hresolved
        -- another project, which is as it was at the start
        · obtain ⟨project', hget, hin, hout⟩ := hall i project
            (by rw [List.getElem?_set_ne (Ne.symm hij), hi])
          rw [hpositions] at hin hout
          refine ⟨project', hget, fun hmem => ?_, fun hnot => hout fun hmem => hnot (.inr hmem)⟩
          exact (hin (hmem.resolve_left hij)).congr hoffer

/-! ## 4. Where every project has its own name -/

theorem indexOf?_of_nodup {projects : List Project} (distinct : (projects.map (·.name)).Nodup)
    {i : Nat} {project : Project} (h : projects[i]? = some project) :
    indexOf? projects project.name = some i := by
  obtain ⟨hlt, hget⟩ := List.getElem?_eq_some_iff.1 h
  match hindex : indexOf? projects project.name with
  | none =>
    exact absurd (List.mem_map_of_mem (List.mem_of_getElem? h)) (indexOf?_eq_none hindex)
  | some j =>
    obtain ⟨other, hother, hname, -⟩ := indexOf?_eq_some hindex
    -- two positions with one name are the same position
    have hsame : (projects.map (·.name))[i]? = (projects.map (·.name))[j]? := by
      rw [List.getElem?_map, List.getElem?_map, h, hother, Option.map_some, Option.map_some, hname]
    rw [(List.getElem?_inj (by rwa [List.length_map]) distinct).1 hsame]

theorem resolveAll_of_buildOrder {projects resolved : List Project}
    (distinct : (projects.map (·.name)).Nodup)
    (h : resolveDependencies projects = (.ok (), resolved)) :
    List.Forall₂ (ResolvedTo projects) projects resolved := by
  rw [resolveDependencies] at h
  split at h
  · cases h
  · split at h
    · cases h
    · next order horder =>
      -- a build order has the name of every project, and has it once
      obtain ⟨hlength, hall⟩ := resolveAll_ok (DependencyGraph.buildOrder_nodup horder) h
      refine .of_forall_getElem? hlength fun i project hi => ?_
      obtain ⟨project', hi', hin, -⟩ := hall i project hi
      have hname : project.name ∈ order :=
        (DependencyGraph.mem_buildOrder horder).2 (List.mem_map_of_mem (List.mem_of_getElem? hi))
      exact ⟨project', hi', hin ((mem_positions (indexOf?_of_nodup distinct hi)).2 hname)⟩

/-- `conf'` is `conf` with what it takes over from the projects it depends on for its target. They
are visited depth first in the order of the lists of dependencies. Their public include paths and
their exported defines follow what is there already, each once. -/
def TakesOver (projects : List Project) (conf conf' : Configuration) : Prop :=
  ∃ (names : List String) (sources : List Configuration),
    Preorder (dependenciesOf? projects conf.target) [] conf.dependencies names ∧
    names.Nodup ∧
    (∀ name, name ∈ names ↔
      Reachable (dependenciesOf? projects conf.target) conf.dependencies name) ∧
    names.map (configurationOf? projects conf.target) = sources.map some ∧
    conf' = { conf with
      dependenciesIncludePaths := conf.dependenciesIncludePaths ++
        ((sources.flatMap (·.includePaths)).filter
          (!·.isIn conf.dependenciesIncludePaths)).eraseDupsBy Path.sameAs
      defines := conf.defines ++
        ((sources.flatMap (·.exportDefines)).filter (!conf.defines.contains ·)).eraseDups
      resolved := true }

/-- What `conf'` has in excess of `conf` is public in a project that `conf` depends on, directly or
not, and for the same target. -/
def AddsOnlyPublic (projects : List Project) (conf conf' : Configuration) : Prop :=
  let offered := fun source : Configuration => source.target = conf.target ∧
    ∃ name, Reachable (dependenciesOf? projects conf.target) conf.dependencies name ∧
      configurationOf? projects conf.target name = some source
  (∀ path ∈ conf'.dependenciesIncludePaths, path ∈ conf.dependenciesIncludePaths ∨
    ∃ source, offered source ∧ path ∈ source.includePaths) ∧
  ∀ define ∈ conf'.defines, define ∈ conf.defines ∨
    ∃ source, offered source ∧ define ∈ source.exportDefines

/-- The configurations at visited positions are those of the visited names. -/
theorem configurationsAt_positions {projects : List Project} {target : Target}
    {names : List String}
    (hknown : ∀ name ∈ names, ∃ below, dependenciesOf? projects target name = some below) :
    names.map (configurationOf? projects target) =
      (configurationsAt projects target (positions projects names)).map some := by
  induction names with
  | nil => rfl
  | cons name names ih =>
    obtain ⟨below, hbelow⟩ := hknown name List.mem_cons_self
    obtain ⟨conf, hconf, -⟩ := Option.map_eq_some_iff.1 hbelow
    have hrest := ih fun other hother => hknown other (List.mem_cons_of_mem _ hother)
    match hi : indexOf? projects name with
    | none => exact absurd (configurationOf?_eq_some hconf).1 (indexOf?_eq_none hi)
    | some i =>
      have hfirst : configurationsAt projects target (i :: positions projects names) =
          conf :: configurationsAt projects target (positions projects names) :=
        List.filterMap_cons_some ((configurationOf?_eq target hi).symm.trans hconf)
      rw [List.map_cons, hrest, hconf, positions_cons hi, hfirst, List.map_cons]

theorem takesOver_of_resolveConfiguration {projects : List Project} {conf conf' : Configuration}
    (h : resolveConfiguration projects conf = .ok conf') : TakesOver projects conf conf' := by
  obtain ⟨indices, hindices, rfl⟩ := resolveConfiguration_ok h
  obtain ⟨names, hwalk, rfl⟩ := preorder_of_transitiveDependencies hindices
  refine ⟨names, _, hwalk, hwalk.nodup List.nodup_nil, fun name => hwalk.mem_iff_reachable,
    configurationsAt_positions fun name hname => ?_, ?_⟩
  -- a walk goes through names with a configuration for the target only
  · obtain ⟨below, hbelow, -⟩ := hwalk.closed hname List.not_mem_nil
    exact ⟨below, hbelow⟩
  · rw [Path.insertAllLast_eq, List.insertAllLast_eq]

/-- What is public in a project that a configuration depends on, directly or not, is taken over. -/
theorem TakesOver.takes {projects : List Project} {conf conf' : Configuration}
    (h : TakesOver projects conf conf') {name : String}
    (hname : Reachable (dependenciesOf? projects conf'.target) conf'.dependencies name) :
    ∃ source, configurationOf? projects conf'.target name = some source ∧
      (∀ path ∈ source.includePaths, path.isIn conf'.dependenciesIncludePaths = true) ∧
      ∀ define ∈ source.exportDefines, define ∈ conf'.defines := by
  obtain ⟨names, sources, -, -, hreach, hsources, rfl⟩ := h
  have hmem : configurationOf? projects conf.target name ∈
      names.map (configurationOf? projects conf.target) := List.mem_map_of_mem ((hreach name).2 hname)
  rw [hsources] at hmem
  obtain ⟨source, hsource, hconf⟩ := List.mem_map.1 hmem
  refine ⟨source, hconf.symm, fun path hpath => ?_, fun define hdefine => ?_⟩
  · rw [← Path.insertAllLast_eq, Path.isIn_insertAllLast]
    exact .inr (Path.isIn_iff.2 ⟨path, List.mem_flatMap.2 ⟨source, hsource, hpath⟩, rfl⟩)
  · rw [← List.insertAllLast_eq, List.mem_insertAllLast]
    exact .inr (List.mem_flatMap.2 ⟨source, hsource, hdefine⟩)

theorem TakesOver.addsOnlyPublic {projects : List Project} {conf conf' : Configuration}
    (h : TakesOver projects conf conf') : AddsOnlyPublic projects conf conf' := by
  obtain ⟨names, sources, -, -, hreach, hsources, rfl⟩ := h
  -- the sources are the configurations of the names on the walk
  have hoffered : ∀ source ∈ sources, source.target = conf.target ∧
      ∃ name, Reachable (dependenciesOf? projects conf.target) conf.dependencies name ∧
        configurationOf? projects conf.target name = some source := by
    intro source hsource
    have hmem : some source ∈ names.map (configurationOf? projects conf.target) := by
      rw [hsources]
      exact List.mem_map_of_mem hsource
    obtain ⟨name, hname, hconf⟩ := List.mem_map.1 hmem
    exact ⟨(configurationOf?_eq_some hconf).2, name, (hreach name).1 hname, hconf⟩
  constructor
  · intro path hpath
    rcases List.mem_append.1 hpath with hold | hnew
    · exact .inl hold
    · have hmem := List.mem_of_mem_filter ((List.eraseDupsBy_sublist _ _).mem hnew)
      obtain ⟨source, hsource, hin⟩ := List.mem_flatMap.1 hmem
      exact .inr ⟨source, hoffered source hsource, hin⟩
  · intro define hdefine
    rcases List.mem_append.1 hdefine with hold | hnew
    · exact .inl hold
    · have hmem := List.mem_of_mem_filter (List.mem_eraseDups.1 hnew)
      obtain ⟨source, hsource, hin⟩ := List.mem_flatMap.1 hmem
      exact .inr ⟨source, hoffered source hsource, hin⟩

/-- `project'` is `project` with what each of its configurations takes over, and nothing else. -/
def TakesOverAll (projects : List Project) (project project' : Project) : Prop :=
  ∃ confs, project' = { project with configurations := confs } ∧
    List.Forall₂ (fun conf conf' =>
      TakesOver projects conf conf' ∧ AddsOnlyPublic projects conf conf')
      project.configurations confs

/-- **Resolution is exact.** Where every project has its own name and resolution succeeds, each
configuration takes over what the projects it depends on offered at the start, and nothing else of
any project changes. -/
theorem resolveDependencies_ok {projects resolved : List Project}
    (distinct : (projects.map (·.name)).Nodup)
    (h : resolveDependencies projects = (.ok (), resolved)) :
    List.Forall₂ (TakesOverAll projects) projects resolved := by
  refine (resolveAll_of_buildOrder distinct h).imp ?_
  rintro project project' ⟨confs, rfl, hconfs⟩
  refine ⟨confs, rfl, hconfs.imp fun conf conf' hconf => ?_⟩
  have htakes := takesOver_of_resolveConfiguration hconf
  exact ⟨htakes, htakes.addsOnlyPublic⟩

def diamond : List Project :=
  let project (name : String) (dependencies : List String) : Project :=
    { Project.create name ⟨"/" ++ name⟩ with
      configurations := [{ Configuration.empty ⟨.win64, .vs2022, .debug⟩ with
        includePaths := [⟨"/" ++ name ++ "/include"⟩]
        privateIncludePaths := [⟨"/" ++ name ++ "/private"⟩]
        defines := [name]
        exportDefines := [name ++ "_API"]
        dependencies }] }
  [project "app" ["left", "right"], project "right" ["base"], project "left" ["base"],
    project "base" []]

theorem resolveDependencies_ok_diamond :
    (diamond.map (·.name)).Nodup ∧ (resolveDependencies diamond).1 = .ok () ∧
      List.Forall₂ (TakesOverAll diamond) diamond (resolveDependencies diamond).2 := by
  have distinct : (diamond.map (·.name)).Nodup := by decide
  have ok : (resolveDependencies diamond).1 = .ok () := by decide +kernel
  exact ⟨distinct, ok, resolveDependencies_ok distinct (Prod.ext ok rfl)⟩

end Resolution

end BuildSteps
