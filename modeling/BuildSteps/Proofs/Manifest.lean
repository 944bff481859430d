import Mathlib.Data.List.Nodup
import BuildSteps.Manifest

/-!
# What validation of a manifest ensures

An accepted manifest has projects with different names and a matrix that is not empty. It may still
name a platform, a development environment or an optimization level more than once, and then the
matrix has targets more than once.
-/

namespace BuildSteps

/-! ## 1. Targets of a matrix -/

/-- Lists that have nothing in common unless they belong to the same element. -/
theorem nodup_flatMap_iff {α β : Type} {xs : List α} {f : α → List β} (hne : xs ≠ [])
    (hsome : ∀ x, f x ≠ []) (hdisjoint : ∀ x y b, b ∈ f x → b ∈ f y → x = y) {Q : Prop}
    (hnodup : ∀ x, (f x).Nodup ↔ Q) : (xs.flatMap f).Nodup ↔ xs.Nodup ∧ Q := by
  -- lists of different elements are disjoint, and a list is not disjoint from itself
  have hpairwise : xs.Pairwise (Function.onFun List.Disjoint f) ↔ xs.Nodup := by
    refine List.Pairwise.iff fun x y => ⟨fun h hxy => ?_, fun hxy b hx hy => ?_⟩
    · obtain ⟨b, hb⟩ := List.exists_mem_of_ne_nil _ (hsome x)
      exact h hb (hxy ▸ hb)
    · exact hxy (hdisjoint x y b hx hy)
  obtain ⟨x, hx⟩ := List.exists_mem_of_ne_nil _ hne
  rw [List.nodup_flatMap, hpairwise]
  constructor
  · exact fun ⟨hall, hxs⟩ => ⟨hxs, (hnodup x).1 (hall x hx)⟩
  · exact fun ⟨hxs, hQ⟩ => ⟨fun y _ => (hnodup y).2 hQ, hxs⟩

namespace Target

/-- A matrix has a target twice just when one of its lists has an entry twice. -/
theorem nodup_matrix_iff {platforms : List Platform} {devEnvs : List DevEnv}
    {optimizations : List Optimization} (hplatforms : platforms ≠ []) (hdevEnvs : devEnvs ≠ [])
    (hoptimizations : optimizations ≠ []) :
    (matrix platforms devEnvs optimizations).Nodup ↔
      platforms.Nodup ∧ devEnvs.Nodup ∧ optimizations.Nodup := by
  -- from the innermost list outwards
  have hinner : ∀ platform devEnv, (optimizations.map (Target.mk platform devEnv)).Nodup ↔
      optimizations.Nodup := fun platform devEnv =>
    List.nodup_map_iff fun _ _ h => (Target.mk.inj h).2.2
  refine nodup_flatMap_iff hplatforms (fun platform => ?_) (fun platform other t ht ht' => ?_)
    fun platform => ?_
  · obtain ⟨devEnv, hdevEnv⟩ := List.exists_mem_of_ne_nil _ hdevEnvs
    obtain ⟨optimization, hoptimization⟩ := List.exists_mem_of_ne_nil _ hoptimizations
    exact List.ne_nil_of_mem (List.mem_flatMap.2
      ⟨devEnv, hdevEnv, List.mem_map_of_mem hoptimization⟩)
  · obtain ⟨_, _, ht⟩ := List.mem_flatMap.1 ht
    obtain ⟨_, _, rfl⟩ := List.mem_map.1 ht
    obtain ⟨_, _, ht'⟩ := List.mem_flatMap.1 ht'
    obtain ⟨_, _, h⟩ := List.mem_map.1 ht'
    exact (Target.mk.inj h).1.symm
  · refine nodup_flatMap_iff hdevEnvs (fun devEnv => ?_) (fun devEnv other t ht ht' => ?_)
      (hinner platform)
    · exact mt List.map_eq_nil_iff.1 hoptimizations
    · obtain ⟨_, _, rfl⟩ := List.mem_map.1 ht
      obtain ⟨_, _, h⟩ := List.mem_map.1 ht'
      exact (Target.mk.inj h).2.1.symm

end Target

/-! ## 2. Accepted manifests -/

namespace Manifest

/-- Whether no list of the matrix has an entry twice. -/
def HasDistinctAxes (m : Manifest) : Prop :=
  m.solution.platforms.Nodup ∧ m.solution.devEnvs.Nodup ∧ m.solution.optimizations.Nodup

-- names are compared with all names before them
theorem nodup_of_nameFault? {seen : List String} {projects : List ProjectManifest}
    (h : nameFault? seen projects = none) :
    (projects.map (·.name)).Nodup ∧ ∀ p ∈ projects, p.name ∉ seen := by
  induction projects generalizing seen with
  | nil => exact ⟨List.nodup_nil, fun p hp => by cases hp⟩
  | cons p projects ih =>
    rw [nameFault?] at h
    split at h
    · cases h
    · split at h
      · cases h
      · next hseen =>
        obtain ⟨hnodup, hfresh⟩ := ih h
        rw [List.contains_iff_mem] at hseen
        constructor
        · refine List.nodup_cons.2 ⟨fun hmem => ?_, hnodup⟩
          obtain ⟨other, hother, hname⟩ := List.mem_map.1 hmem
          exact hfresh other hother (hname ▸ List.mem_cons_self)
        · intro other hother
          rcases List.mem_cons.1 hother with rfl | hmem
          · exact hseen
          · exact fun h => hfresh other hmem (List.mem_cons_of_mem _ h)

theorem validate_ok {m : Manifest} (h : m.validate = .ok ()) :
    (m.projects.map (·.name)).Nodup ∧ m.solution.platforms ≠ [] ∧ m.solution.devEnvs ≠ [] ∧
      m.solution.optimizations ≠ [] := by
  rw [validate] at h
  split at h
  · cases h
  · next hfault =>
    rw [fault?] at hfault
    split at hfault
    · cases hfault
    · split at hfault
      · cases hfault
      · next hmatrix =>
        simp only [Bool.or_eq_true, List.isEmpty_iff, not_or] at hmatrix
        have hnames : nameFault? [] m.projects = none := by
          cases hname : nameFault? [] m.projects with
          | none => rfl
          | some e => rw [hname] at hfault; cases hfault
        exact ⟨(nodup_of_nameFault? hnames).1, hmatrix.1.1, hmatrix.1.2, hmatrix.2⟩

def DependsOn (m : Manifest) (name dependency : String) : Prop :=
  ∃ p ∈ m.projects, p.name = name ∧ dependency ∈ p.dependencies

theorem mem_names_of_validate {m : Manifest} (h : m.validate = .ok ()) {p : ProjectManifest}
    (hp : p ∈ m.projects) {dependency : String} (hdependency : dependency ∈ p.dependencies) :
    dependency ∈ m.projects.map (·.name) := by
  rw [validate] at h
  split at h
  · cases h
  · next hfault =>
    rw [fault?] at hfault
    split at hfault
    · cases hfault
    · split at hfault
      · cases hfault
      · simp only [Option.orElse_eq_orElse, Option.orElse_eq_or, Option.or_eq_none_iff] at hfault
        have hproject := List.findSome?_eq_none_iff.1 hfault.2 p hp
        simp only [projectFault?, Option.orElse_eq_orElse, Option.orElse_eq_or,
          Option.or_eq_none_iff] at hproject
        have hknown := hproject.1
        have hone := List.findSome?_eq_none_iff.1 hknown dependency hdependency
        rw [dependencyFault?] at hone
        split at hone
        · cases hone
        · split at hone
          · next hcontains => exact List.contains_iff_mem.1 hcontains
          · cases hone

theorem targets_ne_nil {m : Manifest} (h : m.validate = .ok ()) : m.targets ≠ [] := by
  obtain ⟨-, hplatforms, hdevEnvs, hoptimizations⟩ := validate_ok h
  obtain ⟨platform, hplatform⟩ := List.exists_mem_of_ne_nil _ hplatforms
  obtain ⟨devEnv, hdevEnv⟩ := List.exists_mem_of_ne_nil _ hdevEnvs
  obtain ⟨optimization, hoptimization⟩ := List.exists_mem_of_ne_nil _ hoptimizations
  have hmem : ⟨platform, devEnv, optimization⟩ ∈ m.targets :=
    Target.mem_matrix.2 ⟨hplatform, hdevEnv, hoptimization⟩
  exact List.ne_nil_of_mem hmem

theorem nodup_targets_iff {m : Manifest} (h : m.validate = .ok ()) :
    m.targets.Nodup ↔ m.HasDistinctAxes := by
  obtain ⟨-, hplatforms, hdevEnvs, hoptimizations⟩ := validate_ok h
  exact Target.nodup_matrix_iff hplatforms hdevEnvs hoptimizations

end Manifest

end BuildSteps
