import Mathlib.Algebra.BigOperators.Group.Finset.Basic
import Mathlib.Algebra.BigOperators.Intervals
import BuildSteps.Dependency.Resolution
import BuildSteps.Proofs.Dependency.Preorder

/-!
# Visiting the dependencies of a configuration

The visit keeps a stack of pending names and the positions it has been to, and counts its steps.
When it succeeds it has made the depth-first walk from the direct dependencies, and its bound of
steps has not cut it short.
-/

namespace BuildSteps.Resolution

/-! ## 1. Projects by name -/

/-- The configuration for a target of the project with a name; of two projects with one name the
later counts. -/
def configurationOf? (projects : List Project) (target : Target) (name : String) :
    Option Configuration :=
  (projects.reverse.find? (·.name == name)).bind (·.configuration? target)

def dependenciesOf? (projects : List Project) (target : Target) (name : String) :
    Option (List String) :=
  (configurationOf? projects target name).map (·.dependencies)

theorem indexOf?_eq_some {projects : List Project} {name : String} {i : Nat}
    (h : indexOf? projects name = some i) :
    ∃ project, projects[i]? = some project ∧ project.name = name ∧
      projects.reverse.find? (·.name == name) = some project := by
  obtain ⟨⟨project, j⟩, hfind, rfl⟩ := Option.map_eq_some_iff.1 h
  have hmem := List.mem_of_find?_eq_some hfind
  have hname := List.find?_some hfind
  refine ⟨project, List.mem_zipIdx_iff_getElem?.1 (List.mem_reverse.1 hmem), beq_iff_eq.1 hname, ?_⟩
  -- forget the positions that the search carries along
  have hmap : projects.zipIdx.reverse.map (·.1) = projects.reverse := by
    rw [List.map_reverse, List.zipIdx_map_fst]
  rw [← hmap, List.find?_map, Function.comp_def, hfind]
  rfl

theorem indexOf?_eq_none {projects : List Project} {name : String}
    (h : indexOf? projects name = none) : name ∉ projects.map (·.name) := by
  rw [indexOf?, Option.map_eq_none_iff, List.find?_eq_none] at h
  intro hmem
  obtain ⟨project, hproject, rfl⟩ := List.mem_map.1 hmem
  obtain ⟨i, hi⟩ := List.mem_iff_getElem?.1 hproject
  exact h (project, i) (List.mem_reverse.2 (List.mem_zipIdx_iff_getElem?.2 hi)) (beq_self_eq_true _)

theorem indexOf?_injective {projects : List Project} {name other : String} {i : Nat}
    (h : indexOf? projects name = some i) (hother : indexOf? projects other = some i) :
    name = other := by
  obtain ⟨project, hi, rfl, -⟩ := indexOf?_eq_some h
  obtain ⟨project', hi', rfl, -⟩ := indexOf?_eq_some hother
  rw [hi] at hi'
  rw [Option.some.inj hi']

theorem configurationOf?_eq {projects : List Project} {name : String} {i : Nat} (target : Target)
    (h : indexOf? projects name = some i) :
    configurationOf? projects target name = projects[i]?.bind (·.configuration? target) := by
  obtain ⟨project, hi, -, hfind⟩ := indexOf?_eq_some h
  rw [configurationOf?, hfind, hi]

theorem configurationOf?_eq_some {projects : List Project} {target : Target} {name : String}
    {conf : Configuration} (h : configurationOf? projects target name = some conf) :
    name ∈ projects.map (·.name) ∧ conf.target = target := by
  obtain ⟨project, hproject, hconf⟩ := Option.bind_eq_some_iff.1 h
  have hname := List.find?_some hproject
  have hmem := List.mem_reverse.1 (List.mem_of_find?_eq_some hproject)
  exact ⟨List.mem_map.2 ⟨project, hmem, beq_iff_eq.1 hname⟩, Project.target_of_configuration? hconf⟩

def positions (projects : List Project) (names : List String) : List Nat :=
  names.filterMap (indexOf? projects)

theorem positions_cons {projects : List Project} {name : String} {i : Nat}
    (h : indexOf? projects name = some i) (names : List String) :
    positions projects (name :: names) = i :: positions projects names :=
  List.filterMap_cons_some h

theorem mem_positions {projects : List Project} {names : List String} {name : String} {i : Nat}
    (h : indexOf? projects name = some i) : i ∈ positions projects names ↔ name ∈ names := by
  rw [positions, List.mem_filterMap]
  constructor
  · rintro ⟨other, hother, hi⟩
    exact indexOf?_injective h hi ▸ hother
  · exact fun hname => ⟨name, hname, h⟩

/-! ## 2. The bound of steps -/

def degreeAt (projects : List Project) (target : Target) (i : Nat) : Nat :=
  ((projects[i]?.bind (·.configuration? target)).map (·.dependencies.length)).getD 0

/-- How many names the projects that were not visited can still bring. -/
def unseenDegree (projects : List Project) (target : Target) (seen : List Nat) : Nat :=
  ∑ i ∈ (Finset.range projects.length).filter (· ∉ seen), degreeAt projects target i

-- a visit to a new project uses up what that project can bring
theorem unseenDegree_append {projects : List Project} {target : Target} {seen : List Nat} {i : Nat}
    (hi : i < projects.length) (hnew : i ∉ seen) :
    degreeAt projects target i + unseenDegree projects target (seen ++ [i]) =
      unseenDegree projects target seen := by
  have herase : (Finset.range projects.length).filter (· ∉ seen ++ [i]) =
      ((Finset.range projects.length).filter (· ∉ seen)).erase i := by
    ext j
    simp only [Finset.mem_filter, Finset.mem_erase, List.mem_append, List.mem_singleton, not_or]
    tauto
  rw [unseenDegree, herase, unseenDegree]
  exact Finset.add_sum_erase _ _ (by simp [hi, hnew])

-- positions stand for elements, so that the sum can leave out those seen
theorem sum_map_eq_sum_range {β : Type} (f : β → Nat) (xs : List β) :
    (xs.map f).sum = ∑ i ∈ Finset.range xs.length, (xs[i]?.map f).getD 0 := by
  induction xs with
  | nil => rfl
  | cons x xs ih =>
    rw [List.map_cons, List.sum_cons, ih, List.length_cons, Finset.sum_range_succ', add_comm]
    rfl

/-- The bound suffices for the names at the start and all that projects can bring. -/
theorem lt_visitBound (projects : List Project) (target : Target) (direct : List String) :
    direct.length + unseenDegree projects target [] < visitBound projects target direct := by
  have hsum : unseenDegree projects target [] = (projects.map fun project =>
      ((project.configuration? target).map (·.dependencies.length)).getD 0).sum := by
    rw [sum_map_eq_sum_range, unseenDegree, Finset.filter_true_of_mem (by simp)]
    apply Finset.sum_congr rfl
    intro i _
    rw [degreeAt]
    cases projects[i]? <;> rfl
  rw [visitBound, hsum]
  exact Nat.lt_succ_self _

/-! ## 3. The walk -/

/-- A visit that succeeds with enough steps made the walk over what was pending. The induction is on
the steps; popping a name gives back at least the step it takes. -/
theorem preorder_of_visit {projects : List Project} {target : Target} {steps : Nat}
    {seen pending : List String} {indices : List Nat}
    (hsteps : pending.length + unseenDegree projects target (positions projects seen) < steps)
    (h : visit projects target steps (positions projects seen) pending = .ok indices) :
    ∃ visited, Preorder (dependenciesOf? projects target) seen pending visited ∧
      indices = positions projects visited := by
  induction steps generalizing seen pending with
  | zero => omega
  | succ steps ih =>
    match pending with
    | [] => exact ⟨seen, .done seen, (Except.ok.inj h).symm⟩
    | name :: pending =>
      rw [visit] at h
      split at h
      · cases h
      · next i hi =>
        obtain ⟨project, hproject, -, -⟩ := indexOf?_eq_some hi
        rw [List.length_cons] at hsteps
        split at h
        -- a name seen before costs a step and is one pending name less
        · next hseen =>
          obtain ⟨visited, hwalk, hindices⟩ := ih (by omega) h
          exact ⟨visited, .again ((mem_positions hi).1 (List.contains_iff_mem.1 hseen)) hwalk,
            hindices⟩
        · next hseen =>
          rw [List.contains_iff_mem] at hseen
          split at h
          · cases h
          · next conf hconf =>
            -- a new name costs a step and brings what its project depends on
            have happend : positions projects seen ++ [i] = positions projects (seen ++ [name]) := by
              simp [positions, hi]
            have hlength : i < projects.length := (List.getElem?_eq_some_iff.1 hproject).1
            have hdegree : degreeAt projects target i = conf.dependencies.length := by
              rw [degreeAt, hconf]
              rfl
            have hunseen := @unseenDegree_append _ target _ _ hlength hseen
            rw [happend] at h hunseen
            obtain ⟨visited, hwalk, hindices⟩ := ih (by rw [List.length_append]; omega) h
            -- first the walk below the project, then the rest of the list
            obtain ⟨between, hbelow, hrest⟩ := Preorder.append.1 hwalk
            refine ⟨visited, .visit (fun hname => hseen ((mem_positions hi).2 hname)) ?_ hbelow hrest,
              hindices⟩
            rw [dependenciesOf?, configurationOf?_eq target hi, hconf]
            rfl

/-- A visit of all dependencies that succeeds makes the walk from the direct ones. -/
theorem preorder_of_transitiveDependencies {projects : List Project} {target : Target}
    {direct : List String} {indices : List Nat}
    (h : transitiveDependencies projects target direct = .ok indices) :
    ∃ visited, Preorder (dependenciesOf? projects target) [] direct visited ∧
      indices = positions projects visited :=
  preorder_of_visit (lt_visitBound projects target direct) h

end BuildSteps.Resolution
