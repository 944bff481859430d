import Mathlib.Algebra.GroupWithZero.Nat
import BuildSteps.Proofs.StepTable
import BuildSteps.Solution

/-!
# What finalization attaches

Finalization looks configurations up by target, and so reaches only the first one for each target.
To that one it attaches the bundle once at every position that the table lists, and it changes
nothing else. It stops at the first entry whose configuration is missing or not resolved.
-/

namespace BuildSteps

/-! ## 1. Configurations found by target -/

namespace Project

/-- Changes each configuration that is the first for its target; `seen` are targets met before. -/
def alterFirsts (change : Configuration → Configuration) :
    List Target → List Configuration → List Configuration
  | _, [] => []
  | seen, conf :: confs =>
    (if conf.target ∈ seen then conf else change conf) ::
      alterFirsts change (conf.target :: seen) confs

theorem alterFirsts_congr {f g : Configuration → Configuration} {seen : List Target}
    {confs : List Configuration} (h : ∀ conf ∈ confs, conf.target ∉ seen → f conf = g conf) :
    alterFirsts f seen confs = alterFirsts g seen confs := by
  induction confs generalizing seen with
  | nil => rfl
  | cons conf confs ih =>
    rw [alterFirsts, alterFirsts, ih fun other hmem hnot =>
      h other (List.mem_cons_of_mem _ hmem) fun hseen => hnot (List.mem_cons_of_mem _ hseen)]
    congr 1
    split
    · rfl
    · next hnot => exact h conf List.mem_cons_self hnot

theorem alterFirsts_id (seen : List Target) (confs : List Configuration) :
    alterFirsts id seen confs = confs := by
  induction confs generalizing seen with
  | nil => rfl
  | cons conf confs ih => rw [alterFirsts, ih, id, ite_self]

theorem alterFirsts_of_nodup {change : Configuration → Configuration} {confs : List Configuration}
    (h : (confs.map (·.target)).Nodup) : alterFirsts change [] confs = confs.map change := by
  have hseen : ∀ seen : List Target, (∀ conf ∈ confs, conf.target ∉ seen) →
      alterFirsts change seen confs = confs.map change := by
    induction confs with
    | nil => exact fun _ _ => rfl
    | cons conf confs ih =>
      intro seen hnot
      obtain ⟨hfresh, hrest⟩ := List.nodup_cons.1 h
      rw [alterFirsts, if_neg (hnot conf List.mem_cons_self), List.map_cons, ih hrest]
      intro other hother hmem
      rcases List.mem_cons.1 hmem with heq | hmem
      · exact hfresh (List.mem_map.2 ⟨other, hother, heq⟩)
      · exact hnot other (List.mem_cons_of_mem conf hother) hmem
  exact hseen [] fun _ _ => List.not_mem_nil

theorem mem_alterFirsts_of_seen {change : Configuration → Configuration} {seen : List Target}
    {confs : List Configuration} {conf : Configuration} (hmem : conf ∈ confs)
    (hseen : conf.target ∈ seen) : conf ∈ alterFirsts change seen confs := by
  induction confs generalizing seen with
  | nil => cases hmem
  | cons first confs ih =>
    rw [alterFirsts]
    rcases List.mem_cons.1 hmem with rfl | hrest
    · rw [if_pos hseen]
      exact List.mem_cons_self
    · exact List.mem_cons_of_mem _ (ih hrest (List.mem_cons_of_mem _ hseen))

/-- Of two configurations for one target the later is left as it is. -/
theorem exists_mem_alterFirsts (change : Configuration → Configuration) {seen : List Target}
    {confs : List Configuration} (h : ¬ (confs.map (·.target)).Nodup) :
    ∃ conf ∈ confs, conf ∈ alterFirsts change seen confs := by
  induction confs generalizing seen with
  | nil => exact absurd List.nodup_nil h
  | cons first confs ih =>
    rw [List.map_cons, List.nodup_cons, not_and_or, not_not] at h
    rw [alterFirsts]
    rcases h with hagain | hrest
    · obtain ⟨conf, hconf, htarget⟩ := List.mem_map.1 hagain
      have hseen : conf.target ∈ first.target :: seen := htarget ▸ List.mem_cons_self
      exact ⟨conf, List.mem_cons_of_mem _ hconf,
        List.mem_cons_of_mem _ (mem_alterFirsts_of_seen hconf hseen)⟩
    · obtain ⟨conf, hconf, hmem⟩ := ih hrest
      exact ⟨conf, List.mem_cons_of_mem _ hconf, List.mem_cons_of_mem _ hmem⟩

theorem mem_of_mem_alterFirsts {change : Configuration → Configuration} {seen : List Target}
    {confs : List Configuration} {conf : Configuration}
    (h : conf ∈ alterFirsts change seen confs) :
    conf ∈ confs ∨ ∃ other ∈ confs, conf = change other := by
  induction confs generalizing seen with
  | nil => cases h
  | cons first confs ih =>
    rw [alterFirsts] at h
    rcases List.mem_cons.1 h with rfl | hrest
    · split
      · exact .inl List.mem_cons_self
      · exact .inr ⟨first, List.mem_cons_self, rfl⟩
    · refine (ih hrest).imp (List.mem_cons_of_mem _) ?_
      rintro ⟨other, hother, rfl⟩
      exact ⟨other, List.mem_cons_of_mem _ hother, rfl⟩

theorem alterFirsts_alterFirsts {f : Configuration → Configuration}
    (htarget : ∀ conf, (f conf).target = conf.target) (g : Configuration → Configuration)
    (seen : List Target) (confs : List Configuration) :
    alterFirsts g seen (alterFirsts f seen confs) = alterFirsts (g ∘ f) seen confs := by
  induction confs generalizing seen with
  | nil => rfl
  | cons conf confs ih =>
    -- the first change leaves the targets, so that both changes meet the same firsts
    have hsame : (if conf.target ∈ seen then conf else f conf).target = conf.target := by
      split
      · rfl
      · exact htarget conf
    rw [alterFirsts, alterFirsts, alterFirsts, hsame, ih]
    congr 1
    by_cases hseen : conf.target ∈ seen
    · rw [if_pos hseen, if_pos hseen, if_pos hseen]
    · rw [if_neg hseen, if_neg hseen, if_neg hseen]
      rfl

theorem length_alterFirsts (change : Configuration → Configuration) (seen : List Target)
    (confs : List Configuration) : (alterFirsts change seen confs).length = confs.length := by
  induction confs generalizing seen with
  | nil => rfl
  | cons conf confs ih => rw [alterFirsts, List.length_cons, ih, List.length_cons]

theorem getElem?_alterFirsts (change : Configuration → Configuration) (seen : List Target)
    (confs : List Configuration) (i : Nat) :
    (alterFirsts change seen confs)[i]? = confs[i]?.map fun conf =>
      if conf.target ∈ seen ∨ conf.target ∈ (confs.take i).map (·.target) then conf
      else change conf := by
  induction confs generalizing seen i with
  | nil => rfl
  | cons first confs ih =>
    rw [alterFirsts]
    cases i with
    | zero =>
      rw [List.getElem?_cons_zero, List.getElem?_cons_zero, Option.map_some, List.take_zero,
        List.map_nil]
      simp only [List.not_mem_nil, or_false]
    | succ i =>
      rw [List.getElem?_cons_succ, List.getElem?_cons_succ, ih, List.take_succ_cons, List.map_cons]
      simp only [List.mem_cons, or_left_comm, or_assoc]

-- the first configuration for a target stays the first one
theorem configuration?_alterFirsts {change : Configuration → Configuration}
    (htarget : ∀ conf, (change conf).target = conf.target) (project : Project) (target : Target) :
    ({ project with configurations := alterFirsts change [] project.configurations } :
      Project).configuration? target = (project.configuration? target).map change := by
  have hall : ∀ (seen : List Target) (confs : List Configuration), target ∉ seen →
      (alterFirsts change seen confs).find? (·.target = target) =
        (confs.find? (·.target = target)).map change := by
    intro seen confs
    induction confs generalizing seen with
    | nil => exact fun _ => rfl
    | cons conf confs ih =>
      intro hnot
      have hhead : (if conf.target ∈ seen then conf else change conf).target = conf.target := by
        split
        · rfl
        · exact htarget conf
      rw [alterFirsts, List.find?_cons, List.find?_cons, hhead]
      by_cases heq : conf.target = target
      · rw [decide_eq_true heq, if_neg (heq ▸ hnot)]
        rfl
      · rw [decide_eq_false heq]
        exact ih _ fun hmem => (List.mem_cons.1 hmem).elim (fun h => heq h.symm) hnot
  exact hall [] project.configurations List.not_mem_nil

/-- Changing the configuration for one target changes the first one that has it. -/
theorem alterConfigurations_eq (target : Target) (change : Configuration → Configuration)
    (confs : List Configuration) :
    alterConfigurations target change confs =
      alterFirsts (fun conf => if conf.target = target then change conf else conf) [] confs := by
  -- behind the first configuration for the target nothing changes any more
  have hseen : ∀ (seen : List Target) (confs : List Configuration), target ∈ seen →
      alterFirsts (fun conf => if conf.target = target then change conf else conf) seen confs =
        confs := by
    intro seen confs htarget
    refine (alterFirsts_congr fun conf _ hnot => ?_).trans (alterFirsts_id seen confs)
    exact if_neg fun heq : conf.target = target => hnot (heq ▸ htarget)
  -- up to it the targets met so far play no role
  have hfresh : ∀ seen : List Target, target ∉ seen → alterConfigurations target change confs =
      alterFirsts (fun conf => if conf.target = target then change conf else conf) seen confs := by
    induction confs with
    | nil => exact fun _ _ => rfl
    | cons conf confs ih =>
      intro seen hnot
      rw [alterConfigurations, alterFirsts]
      by_cases heq : conf.target = target
      · rw [if_pos heq, if_neg (heq ▸ hnot), if_pos heq, hseen _ _ (heq ▸ List.mem_cons_self)]
      · rw [if_neg heq, if_neg heq, ite_self, ih (conf.target :: seen)]
        exact fun hmem => (List.mem_cons.1 hmem).elim (fun h => heq h.symm) hnot
  exact hfresh [] List.not_mem_nil

end Project

/-! ## 2. Attaching bundles -/

theorem Step.attach_attach (step : Step) (bundle other : Bundle) :
    (step.attach bundle).attach other = step.attach bundle := by
  by_cases h : step.resolved.isSome = true
  · rw [attach, attach, if_pos h, if_pos h]
  · rw [attach, attach, if_neg h]
    rfl

namespace Finalization

def attachWhere (bundle : Bundle) (listed : Nat → Bool) (steps : List Step) : List Step :=
  steps.mapIdx fun i step => if listed i then step.attach bundle else step

theorem getElem?_attachWhere (bundle : Bundle) (listed : Nat → Bool) (steps : List Step) (i : Nat) :
    (attachWhere bundle listed steps)[i]? =
      steps[i]?.map fun step => if listed i then step.attach bundle else step :=
  List.getElem?_mapIdx

theorem attachWhere_of_none {bundle : Bundle} {listed : Nat → Bool} {steps : List Step}
    (h : ∀ i < steps.length, listed i = false) : attachWhere bundle listed steps = steps := by
  apply List.ext_getElem?
  intro i
  rw [getElem?_attachWhere]
  match hi : steps[i]? with
  | none => rfl
  | some step =>
    rw [Option.map_some, h i (List.getElem?_eq_some_iff.1 hi).1]
    rfl

theorem attachWhere_append (bundle : Bundle) (listed : Nat → Bool) (steps more : List Step) :
    attachWhere bundle listed (steps ++ more) =
      attachWhere bundle listed steps ++ attachWhere bundle (fun i => listed (i + steps.length)) more :=
  List.mapIdx_append

theorem attachWhere_of_all {bundle : Bundle} {listed : Nat → Bool} {steps : List Step}
    (h : ∀ i < steps.length, listed i = true) :
    attachWhere bundle listed steps = steps.map (·.attach bundle) := by
  apply List.ext_getElem?
  intro i
  rw [getElem?_attachWhere, List.getElem?_map]
  match hi : steps[i]? with
  | none => rfl
  | some step =>
    rw [Option.map_some, Option.map_some, if_pos (h i (List.getElem?_eq_some_iff.1 hi).1)]

/-- Attaching to one stretch of the steps. -/
theorem attachWhere_stretch {bundle : Bundle} {listed : Nat → Bool} {before steps after : List Step}
    (h : ∀ i, listed i = true ↔ before.length ≤ i ∧ i < before.length + steps.length) :
    attachWhere bundle listed (before ++ (steps ++ after)) =
      before ++ (steps.map (·.attach bundle) ++ after) := by
  -- positions count from the start of each of the three parts
  have hbefore : ∀ i < before.length, listed i = false := fun i hi =>
    Bool.eq_false_iff.2 fun hlisted => by have := (h i).1 hlisted; omega
  have hsteps : ∀ i < steps.length, listed (i + before.length) = true := fun i hi =>
    (h _).2 (by omega)
  have hafter : ∀ i < after.length, listed (i + steps.length + before.length) = false := fun i hi =>
    Bool.eq_false_iff.2 fun hlisted => by have := (h _).1 hlisted; omega
  rw [attachWhere_append, attachWhere_append, attachWhere_of_none hbefore, attachWhere_of_all hsteps,
    attachWhere_of_none hafter]

theorem attachWhere_attachWhere (bundle : Bundle) (listed more : Nat → Bool) (steps : List Step) :
    attachWhere bundle more (attachWhere bundle listed steps) =
      attachWhere bundle (fun i => listed i || more i) steps := by
  apply List.ext_getElem?
  intro i
  rw [getElem?_attachWhere, getElem?_attachWhere, getElem?_attachWhere, Option.map_map]
  congr 1
  funext step
  rw [Function.comp_apply]
  cases listed i <;> cases more i <;> simp [Step.attach_attach]

theorem attachAt_eq_attachWhere (bundle : Bundle) (steps : List Step) (index : Nat) :
    attachAt bundle steps index = attachWhere bundle (fun i => i == index) steps := by
  apply List.ext_getElem?
  intro i
  rw [attachAt, getElem?_attachWhere]
  split
  · next hnone =>
    by_cases hi : i = index
    · rw [hi, hnone]
      rfl
    · simp [hi]
  · next step hstep =>
    by_cases hi : i = index
    · rw [hi, List.getElem?_set_self (List.getElem?_eq_some_iff.1 hstep).1, hstep]
      simp
    · rw [List.getElem?_set_ne (Ne.symm hi)]
      simp [hi]

/-- However often a position is listed, its step gets the bundle once. -/
theorem foldl_attachAt (bundle : Bundle) (indices : List Nat) (steps : List Step) :
    indices.foldl (attachAt bundle) steps = attachWhere bundle (indices.contains ·) steps := by
  induction indices generalizing steps with
  | nil => exact (attachWhere_of_none fun _ _ => rfl).symm
  | cons index indices ih =>
    rw [List.foldl_cons, ih, attachAt_eq_attachWhere, attachWhere_attachWhere]
    rfl

def attachTable (additional : List AdditionalDefinition) (table : StepTable)
    (conf : Configuration) : Configuration :=
  { conf with
    steps := attachWhere (conf.bundle additional) (table.lists conf.target) conf.steps }

theorem attachTable_nil (additional : List AdditionalDefinition) :
    attachTable additional ⟨[]⟩ = id := by
  funext conf
  show { conf with steps := attachWhere _ (fun _ => false) conf.steps } = conf
  rw [attachWhere_of_none fun _ _ => rfl]

theorem attachTable_singleton (additional : List AdditionalDefinition) (entry : StepTable.Entry)
    (conf : Configuration) :
    attachTable additional ⟨[entry]⟩ conf =
      if conf.target = entry.target then attachSteps additional entry.steps conf else conf := by
  have hlists : StepTable.lists ⟨[entry]⟩ conf.target = fun i =>
      decide (entry.target = conf.target) && entry.steps.contains i := by
    funext i
    exact Bool.or_false _
  rw [attachTable, hlists]
  by_cases htarget : conf.target = entry.target
  · rw [if_pos htarget, attachSteps, foldl_attachAt, decide_eq_true htarget.symm]
    simp only [Bool.true_and]
  · rw [if_neg htarget, decide_eq_false (Ne.symm htarget)]
    simp only [Bool.false_and]
    rw [attachWhere_of_none fun _ _ => rfl]

theorem attachTable_append (additional : List AdditionalDefinition)
    (before after : List StepTable.Entry) (conf : Configuration) :
    attachTable additional ⟨before ++ after⟩ conf =
      attachTable additional ⟨after⟩ (attachTable additional ⟨before⟩ conf) := by
  have hlists : StepTable.lists ⟨before ++ after⟩ conf.target = fun i =>
      StepTable.lists ⟨before⟩ conf.target i || StepTable.lists ⟨after⟩ conf.target i := by
    funext i
    exact List.any_append
  rw [attachTable, hlists, attachTable, attachTable]
  -- the bundle does not depend on the steps
  show _ = { conf with steps := attachWhere (conf.bundle additional) _ (attachWhere _ _ _) }
  rw [attachWhere_attachWhere]

def attachAll (additional : List AdditionalDefinition) (table : StepTable) (project : Project) :
    Project :=
  { project with
    configurations :=
      Project.alterFirsts (attachTable additional table) [] project.configurations }

@[simp] theorem attachAll_nil (additional : List AdditionalDefinition) (project : Project) :
    attachAll additional ⟨[]⟩ project = project := by
  rw [attachAll, attachTable_nil, Project.alterFirsts_id]

theorem attachAll_singleton (additional : List AdditionalDefinition) (entry : StepTable.Entry)
    (project : Project) :
    attachAll additional ⟨[entry]⟩ project =
      project.alterConfiguration entry.target (attachSteps additional entry.steps) := by
  rw [attachAll, Project.alterConfiguration, Project.alterConfigurations_eq]
  congr 2
  funext conf
  exact attachTable_singleton additional entry conf

theorem attachAll_append (additional : List AdditionalDefinition)
    (before after : List StepTable.Entry) (project : Project) :
    attachAll additional ⟨before ++ after⟩ project =
      attachAll additional ⟨after⟩ (attachAll additional ⟨before⟩ project) := by
  have htarget (conf : Configuration) : (attachTable additional ⟨before⟩ conf).target = conf.target :=
    rfl
  rw [attachAll, attachAll, attachAll, Project.alterFirsts_alterFirsts htarget]
  congr 2
  funext conf
  exact attachTable_append additional before after conf

end Finalization

/-! ## 3. One entry after the other -/

/-- Whether the first configuration for a target is resolved; nothing when there is none. -/
def Project.standing? (project : Project) (target : Target) : Option Bool :=
  (project.configuration? target).map (·.resolved)

theorem Project.standing?_ne_none_iff {project : Project} {target : Target} :
    project.standing? target ≠ none ↔ target ∈ project.configurations.map (·.target) := by
  simp [standing?, configuration?, List.find?_eq_none]

theorem Project.standing?_alterFirsts {change : Configuration → Configuration}
    (hchange : ∀ conf, (change conf).target = conf.target ∧ (change conf).resolved = conf.resolved)
    (project : Project) (target : Target) :
    ({ project with configurations := alterFirsts change [] project.configurations } :
      Project).standing? target = project.standing? target := by
  rw [standing?, configuration?_alterFirsts fun conf => (hchange conf).1, Option.map_map, standing?]
  exact congrArg (Option.map · _) (funext fun conf => (hchange conf).2)

inductive Project.Refuses (project : Project) (entry : StepTable.Entry) : BuildError → Prop
  | missing : project.standing? entry.target = none →
    project.Refuses entry (.missingConfiguration project.name entry.target)
  | unresolved : project.standing? entry.target = some false →
    project.Refuses entry (.unresolvedConfiguration project.name entry.target)

-- nothing but the name and the standings is asked for
theorem Project.Refuses.congr {project other : Project} {entry : StepTable.Entry} {e : BuildError}
    (h : project.Refuses entry e) (hname : project.name = other.name)
    (hstanding : project.standing? entry.target = other.standing? entry.target) :
    other.Refuses entry e := by
  cases h with
  | missing hnone =>
    rw [hname]
    exact .missing (hstanding ▸ hnone)
  | unresolved hfalse =>
    rw [hname]
    exact .unresolved (hstanding ▸ hfalse)

theorem Project.exists_refuses_iff {project : Project} {entry : StepTable.Entry} :
    (∃ e, project.Refuses entry e) ↔ project.standing? entry.target ≠ some true := by
  constructor
  · rintro ⟨e, hnone | hfalse⟩
    · rw [hnone]
      exact nofun
    · rw [hfalse]
      exact nofun
  · intro h
    match hstanding : project.standing? entry.target with
    | none => exact ⟨_, .missing hstanding⟩
    | some false => exact ⟨_, .unresolved hstanding⟩
    | some true => exact absurd hstanding h

/-- The number of positions in an entry, counted as often as they are listed, that hold a step of
the first configuration for its target. -/
def Project.hits (project : Project) (entry : StepTable.Entry) : Nat :=
  ((project.configuration? entry.target).map fun conf =>
    entry.steps.countP (· < conf.steps.length)).getD 0

theorem Project.hits_alterFirsts {change : Configuration → Configuration}
    (hchange : ∀ conf, (change conf).target = conf.target ∧
      (change conf).steps.length = conf.steps.length)
    (project : Project) (entry : StepTable.Entry) :
    ({ project with configurations := alterFirsts change [] project.configurations } :
      Project).hits entry = project.hits entry := by
  rw [hits, configuration?_alterFirsts fun conf => (hchange conf).1, Option.map_map, hits]
  congr 2
  funext conf
  rw [Function.comp_apply, (hchange conf).2]

namespace Finalization

variable {additional : List AdditionalDefinition} {project : Project} {entry : StepTable.Entry}
  {before : List StepTable.Entry}

-- attaching leaves alone what decides which entries are refused and how many steps they hit
theorem standing?_attachAll (additional : List AdditionalDefinition) (table : StepTable)
    (project : Project) (target : Target) :
    (attachAll additional table project).standing? target = project.standing? target := by
  have hsame (conf : Configuration) : (attachTable additional table conf).target = conf.target ∧
      (attachTable additional table conf).resolved = conf.resolved := ⟨rfl, rfl⟩
  exact Project.standing?_alterFirsts hsame project target

theorem hits_attachAll (additional : List AdditionalDefinition) (table : StepTable)
    (project : Project) : (attachAll additional table project).hits = project.hits := by
  have hsame (conf : Configuration) : (attachTable additional table conf).target = conf.target ∧
      (attachTable additional table conf).steps.length = conf.steps.length :=
    ⟨rfl, List.length_mapIdx⟩
  exact funext (Project.hits_alterFirsts hsame project)

theorem refuses_attachAll {e : BuildError} (h : project.Refuses entry e)
    (additional : List AdditionalDefinition) (table : StepTable) :
    (attachAll additional table project).Refuses entry e :=
  h.congr rfl (standing?_attachAll additional table project entry.target).symm

theorem finalizeEntries_cons (h : project.standing? entry.target = some true) (updated : Nat)
    (entries : List StepTable.Entry) :
    finalizeEntries additional updated project (entry :: entries) =
      finalizeEntries additional (updated + project.hits entry)
        (attachAll additional ⟨[entry]⟩ project) entries := by
  obtain ⟨conf, hconf, hresolved⟩ := Option.map_eq_some_iff.1 h
  rw [finalizeEntries, hconf, attachAll_singleton, Project.hits, hconf, Option.map_some,
    Option.getD_some, List.countP_eq_length_filter]
  exact if_pos hresolved

/-- Entries whose configurations are resolved are gone through. -/
theorem finalizeEntries_append
    (h : ∀ earlier ∈ before, project.standing? earlier.target = some true) (updated : Nat)
    (entries : List StepTable.Entry) :
    finalizeEntries additional updated project (before ++ entries) =
      finalizeEntries additional (updated + (before.map project.hits).sum)
        (attachAll additional ⟨before⟩ project) entries := by
  induction before generalizing updated project with
  | nil =>
    rw [attachAll_nil]
    rfl
  | cons first before ih =>
    obtain ⟨hfirst, hbefore⟩ := List.forall_mem_cons.1 h
    rw [List.cons_append, finalizeEntries_cons hfirst, ih fun earlier hearlier =>
        (standing?_attachAll _ _ _ _).trans (hbefore earlier hearlier),
      hits_attachAll, ← attachAll_append, List.singleton_append, List.map_cons, List.sum_cons,
      Nat.add_assoc]

theorem finalizeEntries_of_ready {entries : List StepTable.Entry}
    (h : ∀ entry ∈ entries, project.standing? entry.target = some true) (updated : Nat) :
    finalizeEntries additional updated project entries =
      (.ok (updated + (entries.map project.hits).sum), attachAll additional ⟨entries⟩ project) := by
  have hrun : finalizeEntries additional updated project (entries ++ []) = _ :=
    finalizeEntries_append h updated []
  rw [List.append_nil] at hrun
  exact hrun

theorem finalizeEntries_of_refuses {e : BuildError}
    (hbefore : ∀ earlier ∈ before, project.standing? earlier.target = some true)
    (h : project.Refuses entry e) (updated : Nat) (after : List StepTable.Entry) :
    finalizeEntries additional updated project (before ++ entry :: after) =
      (.error e, attachAll additional ⟨before⟩ project) := by
  rw [finalizeEntries_append hbefore, finalizeEntries]
  -- the entry is refused for what attaching leaves alone
  cases refuses_attachAll h additional ⟨before⟩ with
  | missing hnone => rw [Option.map_eq_none_iff.1 hnone]
  | unresolved hfalse =>
    obtain ⟨conf, hconf, hopen⟩ := Option.map_eq_some_iff.1 hfalse
    rw [hconf]
    exact if_neg (Bool.eq_false_iff.1 hopen)

/-- A table is gone through to its end or to the first entry that is refused. -/
theorem ready_or_refuses (project : Project) (entries : List StepTable.Entry) :
    (∀ entry ∈ entries, project.standing? entry.target = some true) ∨
      ∃ before entry after e, entries = before ++ entry :: after ∧
        (∀ earlier ∈ before, project.standing? earlier.target = some true) ∧
        project.Refuses entry e := by
  cases hfind : entries.find? fun entry => project.standing? entry.target ≠ some true with
  | none =>
    refine .inl fun entry hentry => ?_
    simpa using List.find?_eq_none.1 hfind entry hentry
  | some entry =>
    obtain ⟨hentry, before, after, rfl, hbefore⟩ := List.find?_eq_some_iff_append.1 hfind
    obtain ⟨e, hrefuses⟩ := Project.exists_refuses_iff.2 (of_decide_eq_true hentry)
    exact .inr ⟨before, entry, after, e, rfl, fun earlier hearlier => by
      simpa using hbefore earlier hearlier, hrefuses⟩

theorem finalizeEntries_ok {entries : List StepTable.Entry} {updated count : Nat}
    {project' : Project}
    (h : finalizeEntries additional updated project entries = (.ok count, project')) :
    project' = attachAll additional ⟨entries⟩ project := by
  rcases ready_or_refuses project entries with hready | ⟨_, _, _, _, rfl, hbefore, hrefuses⟩
  · rw [finalizeEntries_of_ready hready] at h
    exact (Prod.mk.inj h).2.symm
  · rw [finalizeEntries_of_refuses hbefore hrefuses] at h
    cases (Prod.mk.inj h).1

/-- Finalization either treats all entries, whose configurations are resolved then, or refuses
one. -/
theorem finalizeEntries_cases {entries : List StepTable.Entry} {updated : Nat} {project' : Project}
    {result : Except BuildError Nat}
    (h : finalizeEntries additional updated project entries = (result, project')) :
    (∃ e, result = .error e ∧ ∃ entry ∈ entries, project.Refuses entry e) ∨
      ((∃ count, result = .ok count) ∧
        ∀ entry ∈ entries, project.standing? entry.target = some true) := by
  rcases ready_or_refuses project entries with
    hready | ⟨before, entry, after, e, rfl, hbefore, hrefuses⟩
  · rw [finalizeEntries_of_ready hready] at h
    exact .inr ⟨⟨_, (Prod.mk.inj h).1.symm⟩, hready⟩
  · rw [finalizeEntries_of_refuses hbefore hrefuses] at h
    exact .inl ⟨e, (Prod.mk.inj h).1.symm, entry, List.mem_append_right _ List.mem_cons_self,
      hrefuses⟩

end Finalization

/-! ## 4. Tools -/

open Finalization

def attachTables (collected : List (Tool × StepTable)) (conf : Configuration) : Configuration :=
  collected.foldl (fun conf entry => attachTable entry.1.additional entry.2 conf) conf

theorem Tool.finalize_ok {tool : Tool} {table : StepTable} {project project' : Project}
    (h : tool.finalize table project = (.ok (), project')) :
    project' = { project with
      configurations :=
        Project.alterFirsts (attachTable tool.additional table) [] project.configurations } := by
  rw [finalize, finalizeSteps] at h
  split at h
  · next count project'' hentries =>
    obtain rfl := (Prod.mk.inj h).2
    exact finalizeEntries_ok hentries
  · cases h

theorem finalizeTools_ok {collected : List (Tool × StepTable)} {project project' : Project}
    (h : Solution.finalizeTools project collected = (.ok (), project')) :
    project' = { project with
      configurations :=
        Project.alterFirsts (attachTables collected) [] project.configurations } := by
  induction collected generalizing project with
  | nil =>
    obtain rfl := (Prod.mk.inj h).2
    have hid : attachTables [] = id := rfl
    rw [hid, Project.alterFirsts_id]
  | cons entry rest ih =>
    rw [Solution.finalizeTools] at h
    split at h
    · cases h
    · next between hbetween =>
      have htarget : ∀ conf, (attachTable entry.1.additional entry.2 conf).target = conf.target :=
        fun _ => rfl
      rw [ih h, Tool.finalize_ok hbetween, Project.alterFirsts_alterFirsts htarget]
      rfl

end BuildSteps
