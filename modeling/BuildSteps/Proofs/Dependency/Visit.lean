import BuildSteps.Proofs.Dependency.ChainOrder

/-!
# What a visit finds

A visit comes to an end by itself: its bound of steps never matters. What its stack stands for is a
walk over the names on it, each with all that is below it, one after the other. So the visit goes
through the names within reach in the order of the depth-first walk, up to the first name that it
cannot find a configuration for.
-/

namespace BuildSteps.Resolution

variable {projects : List Project} {target : Target}

/-! ## 1. Without a bound -/

theorem unseenDegree_visit {seen : List Nat} {name : String} {i : Nat} {conf : Configuration}
    (hindex : indexOf? projects name = some i) (hnew : i ∉ seen)
    (hconf : projects[i]?.bind (·.configuration? target) = some conf) :
    conf.dependencies.length + unseenDegree projects target (seen ++ [i]) =
      unseenDegree projects target seen := by
  obtain ⟨project, hproject, -, -⟩ := indexOf?_eq_some hindex
  have hdegree : degreeAt projects target i = conf.dependencies.length := by
    rw [degreeAt, hconf]
    rfl
  rw [← hdegree]
  exact unseenDegree_append (List.getElem?_eq_some_iff.1 hproject).1 hnew

/-- The visit without a bound of its steps. Each step takes a name off the list, and one that
visits a project uses up what this project can bring. -/
def visitAll (projects : List Project) (target : Target) (seen : List Nat) (pending : List String) :
    Except BuildError (List Nat) :=
  match pending with
  | [] => .ok seen
  | name :: pending =>
    match _hindex : indexOf? projects name with
    | none => .error (.unknownProject name)
    | some i =>
      if _hnew : i ∈ seen then visitAll projects target seen pending
      else
        match _hconf : projects[i]?.bind (·.configuration? target) with
        | none => .error (.missingConfiguration name target)
        | some conf => visitAll projects target (seen ++ [i]) (conf.dependencies ++ pending)
termination_by pending.length + unseenDegree projects target seen
decreasing_by
  · simp
  · have hunseen := unseenDegree_visit _hindex _hnew _hconf
    rw [List.length_append, List.length_cons]
    omega

/-- With enough steps a visit is the one without a bound. -/
theorem visit_eq_visitAll {steps : Nat} {seen : List Nat} {pending : List String}
    (hsteps : pending.length + unseenDegree projects target seen < steps) :
    visit projects target steps seen pending = visitAll projects target seen pending := by
  induction steps generalizing seen pending with
  | zero => omega
  | succ steps ih =>
    fun_cases visitAll projects target seen pending with
    | case1 => rfl
    | case2 name pending hindex => simp only [visit, hindex]
    | case3 name pending i hindex hmem =>
      rw [List.length_cons] at hsteps
      simp only [visit, hindex, List.contains_iff_mem, hmem, if_true]
      exact ih (by omega)
    | case4 name pending i hindex hnew hconf =>
      simp only [visit, hindex, List.contains_iff_mem, hnew, if_false, hconf]
    | case5 name pending i hindex hnew conf hconf =>
      have hunseen := unseenDegree_visit hindex hnew hconf
      rw [List.length_cons] at hsteps
      simp only [visit, hindex, List.contains_iff_mem, hnew, if_false, hconf]
      exact ih (by rw [List.length_append]; omega)

/-! ## 2. One name -/

def successors? (projects : List Project) (target : Target) (name : String) : Option (List String) :=
  some ((dependenciesOf? projects target name).getD [])

def refusal? (projects : List Project) (target : Target) (name : String) : Option BuildError :=
  if name ∉ projects.map (·.name) then some (.unknownProject name)
  else if (configurationOf? projects target name).isNone then
    some (.missingConfiguration name target)
  else none

theorem refusal?_eq_none_iff {name : String} :
    refusal? projects target name = none ↔
      ∃ conf, configurationOf? projects target name = some conf := by
  rw [refusal?]
  split
  · next hunknown =>
    simp only [reduceCtorEq, false_iff, not_exists]
    exact fun conf hconf => hunknown (configurationOf?_eq_some hconf).1
  · rw [← Option.isSome_iff_exists]
    cases configurationOf? projects target name <;> simp

/-- What a visit does with the name on top of its stack. -/
theorem visitAll_cons {seen : List String}
    (hseen : ∀ name ∈ seen, refusal? projects target name = none) (name : String)
    (pending : List String) :
    visitAll projects target (positions projects seen) (name :: pending) =
      if name ∈ seen then visitAll projects target (positions projects seen) pending
      else
        match refusal? projects target name with
        | some e => .error e
        | none => visitAll projects target (positions projects (seen ++ [name]))
            ((dependenciesOf? projects target name).getD [] ++ pending) := by
  rw [visitAll]
  split
  -- a name of no project is none of those seen, which are not refused
  · next hindex =>
    have hrefusal : refusal? projects target name = some (.unknownProject name) :=
      if_pos (indexOf?_eq_none hindex)
    rw [if_neg, hrefusal]
    exact fun hmem => absurd ((hseen name hmem).symm.trans hrefusal) (by simp)
  · next i hindex =>
    have hconfiguration := configurationOf?_eq target hindex
    obtain ⟨project, hproject, rfl, -⟩ := indexOf?_eq_some hindex
    have hknown := List.mem_map_of_mem (f := (·.name)) (List.mem_of_getElem? hproject)
    split
    · next hmem => rw [if_pos ((mem_positions hindex).1 hmem)]
    · next hnew =>
      rw [if_neg (mt (mem_positions hindex).2 hnew)]
      split
      · next hconf =>
        rw [refusal?, if_neg (not_not.2 hknown), hconfiguration, hconf]
        rfl
      · next conf hconf =>
        have happend : positions projects (seen ++ [project.name]) =
            positions projects seen ++ [i] := by simp [positions, hindex]
        rw [refusal?_eq_none_iff.2 ⟨conf, hconfiguration.trans hconf⟩, dependenciesOf?,
          hconfiguration, hconf, happend]
        rfl

/-! ## 3. The whole stack -/

/-- What is left of the names on the stack and below them once the visit has made the walk over the
first of them: an error, or the visit of the others. The induction is on the walk. -/
theorem visitAll_append {seen nodes visited added : List String}
    (h : Preorder (successors? projects target) seen nodes visited)
    (hvisited : visited = seen ++ added)
    (hseen : ∀ name ∈ seen, refusal? projects target name = none) (more : List String) :
    visitAll projects target (positions projects seen) (nodes ++ more) =
      match added.findSome? (refusal? projects target) with
      | some e => .error e
      | none => visitAll projects target (positions projects visited) more := by
  induction h generalizing added more with
  | done seen =>
    obtain rfl := List.self_eq_append_right.1 hvisited
    rfl
  | again hmem _ ih =>
    rw [List.cons_append, visitAll_cons hseen, if_pos hmem]
    exact ih hvisited hseen more
  | @visit seen below between nodes visited name hnew hnext hbelow hrest ihbelow ihrest =>
    obtain ⟨behind, rfl⟩ := hrest.seen_prefix
    obtain ⟨inside, rfl⟩ := hbelow.seen_prefix
    obtain rfl : added = name :: (inside ++ behind) := by simpa using hvisited.symm
    -- the names below this one go on top of what is left of the list and of `more`
    rw [List.cons_append, visitAll_cons hseen, if_neg hnew, List.findSome?_cons]
    cases hname : refusal? projects target name with
    | some e => rfl
    | none =>
      have hsuccessors : (dependenciesOf? projects target name).getD [] = below :=
        Option.some.inj hnext
      have hfirst : ∀ other ∈ seen ++ [name], refusal? projects target other = none := by
        simpa [or_imp, forall_and, hname] using hseen
      simp only [hsuccessors, ihbelow rfl hfirst, List.findSome?_append]
      cases hinside : inside.findSome? (refusal? projects target) with
      | some e => rfl
      | none =>
        refine ihrest rfl (fun other hother => ?_) more
        rcases List.mem_append.1 hother with hother | hother
        · exact hfirst other hother
        · exact List.findSome?_eq_none_iff.1 hinside other hother

/-! ## 4. The whole visit -/

theorem exists_walk (projects : List Project) (target : Target) (direct : List String) :
    ∃ names, Preorder (successors? projects target) [] direct names := by
  have hleaf : ∀ name, name ∉ projects.map (·.name) →
      successors? projects target name = some [] := by
    intro name hname
    have hnone : configurationOf? projects target name = none :=
      Option.eq_none_iff_forall_ne_some.2 fun conf hconf => hname (configurationOf?_eq_some hconf).1
    rw [successors?, dependenciesOf?, hnone, Option.map_none, Option.getD_none]
  exact Preorder.exists_visited (fun _ => ⟨_, rfl⟩) hleaf [] direct

/-- A name without a configuration leads nowhere, whether or not this ends the visit. -/
theorem reachable_successors?_iff {direct : List String} {name : String} :
    Reachable (successors? projects target) direct name ↔
      Reachable (dependenciesOf? projects target) direct name := by
  constructor
  · intro h
    induction h with
    | start hmem => exact .start hmem
    | @step via name below _ hnext hmem ih =>
      obtain rfl := Option.some.inj hnext
      cases hvia : dependenciesOf? projects target via with
      | none => simp [hvia] at hmem
      | some below => exact ih.step hvia (by simpa [hvia] using hmem)
  · intro h
    induction h with
    | start hmem => exact .start hmem
    | @step via name below _ hnext hmem ih =>
      have hbelow : successors? projects target via = some below := by
        rw [successors?, hnext, Option.getD_some]
      exact ih.step hbelow hmem

theorem transitiveDependencies_eq_visitAll (projects : List Project) (target : Target)
    (direct : List String) :
    transitiveDependencies projects target direct = visitAll projects target [] direct :=
  visit_eq_visitAll (lt_visitBound projects target direct)

theorem transitiveDependencies_of_walk {direct names : List String}
    (h : Preorder (successors? projects target) [] direct names) :
    transitiveDependencies projects target direct =
      match names.findSome? (refusal? projects target) with
      | some e => .error e
      | none => .ok (positions projects names) := by
  have hvisit := visitAll_append h (List.nil_append names).symm (by simp) []
  rw [List.append_nil] at hvisit
  refine (transitiveDependencies_eq_visitAll projects target direct).trans (hvisit.trans ?_)
  cases names.findSome? (refusal? projects target) with
  | some e => rfl
  | none => rw [visitAll]

theorem map_some_positions_of_refusal? {names : List String}
    (h : ∀ name ∈ names, refusal? projects target name = none) :
    (positions projects names).map some = names.map (indexOf? projects) := by
  refine map_some_positions fun name hname => ?_
  obtain ⟨conf, hconf⟩ := refusal?_eq_none_iff.1 (h name hname)
  have hbelow : dependenciesOf? projects target name = some conf.dependencies := by
    rw [dependenciesOf?, hconf, Option.map_some]
  exact exists_indexOf?_of_dependenciesOf? hbelow

theorem nodup_positions {names : List String} (h : names.Nodup) :
    (positions projects names).Nodup :=
  h.filterMap fun _ _ _ hi hj => indexOf?_injective hi hj

/-- **A visit goes through all that is within reach, in the order of the depth-first walk.** It ends,
and with every greater bound in the same way. Let `names` be those within reach of the direct
dependencies, each once, in the order in which a recursive walk comes to them that lists a name
before those below it. If the project of each has a configuration for the target, the visit succeeds
with their positions; else the first one that is unknown, or without the target, decides the
error. -/
theorem transitiveDependencies_exact (projects : List Project) (target : Target)
    (direct : List String) :
    (transitiveDependencies projects target direct = visitAll projects target [] direct ∧
      ∀ steps ≥ visitBound projects target direct,
        visit projects target steps [] direct = transitiveDependencies projects target direct) ∧
    ∃ names : List String,
      Preorder (successors? projects target) [] direct names ∧ names.Nodup ∧
      (∀ name, name ∈ names ↔ Reachable (dependenciesOf? projects target) direct name) ∧
      (∀ indices, transitiveDependencies projects target direct = .ok indices ↔
        (∀ name ∈ names, refusal? projects target name = none) ∧
          indices.map some = names.map (indexOf? projects)) ∧
      (∀ indices, transitiveDependencies projects target direct = .ok indices → indices.Nodup) ∧
      ∀ e, transitiveDependencies projects target direct = .error e ↔
        names.findSome? (refusal? projects target) = some e := by
  have heq := transitiveDependencies_eq_visitAll projects target direct
  refine ⟨⟨heq, fun steps hsteps => ?_⟩, ?_⟩
  · rw [heq]
    exact visit_eq_visitAll ((lt_visitBound projects target direct).trans_le hsteps)
  · obtain ⟨names, hwalk⟩ := exists_walk projects target direct
    have hresult := transitiveDependencies_of_walk hwalk
    have hnodup := hwalk.nodup List.nodup_nil
    refine ⟨names, hwalk, hnodup,
      fun name => hwalk.mem_iff_reachable.trans reachable_successors?_iff, ?_⟩
    cases hfirst : names.findSome? (refusal? projects target) with
    | some e =>
      simp only [hfirst] at hresult
      have hrefused : ¬ ∀ name ∈ names, refusal? projects target name = none := fun hall => by
        rw [List.findSome?_eq_none_iff.2 hall] at hfirst
        cases hfirst
      simp [hresult, hrefused]
    | none =>
      have hall := List.findSome?_eq_none_iff.1 hfirst
      have hpositions := map_some_positions_of_refusal? hall
      simp only [hfirst] at hresult
      refine ⟨fun indices => ?_, fun indices hindices => ?_, fun e => by simp [hresult]⟩
      · rw [hresult, Except.ok.injEq, ← hpositions,
          (List.map_injective_iff.2 (Option.some_injective Nat)).eq_iff]
        exact ⟨fun h => ⟨hall, h.symm⟩, fun h => h.2.symm⟩
      · obtain rfl := Except.ok.inj (hresult.symm.trans hindices)
        exact nodup_positions hnodup

-- `gui` and `app` lead to each other, and of two unknown names the one below `gui` comes first
example :
    let target : Target := ⟨.win64, .vs2022, .debug⟩
    let project (name : String) (dependencies : List String) : Project :=
      { Project.create name ⟨"/" ++ name⟩ with
        configurations := [{ Configuration.empty target with dependencies }] }
    let projects := [project "app" ["gui", "app"], project "gui" ["app", "base"]]
    transitiveDependencies (projects ++ [project "base" []]) target ["gui", "gui"] = .ok [1, 0, 2] ∧
      transitiveDependencies projects target ["app", "net"] = .error (.unknownProject "base") := by
  decide +kernel

end BuildSteps.Resolution
