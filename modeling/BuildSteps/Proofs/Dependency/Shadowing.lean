import BuildSteps.Proofs.Dependency.Resolution

/-!
# Projects that share a name

A name leads to the last project that has it. Resolution goes through names, and so it treats the
last project with each name and passes over those before it.
-/

namespace BuildSteps.Resolution

/-- Whether a project behind the one at a position has the same name. -/
def Shadowed (projects : List Project) (i : Nat) : Prop :=
  ∃ j name, i < j ∧ (projects.map (·.name))[i]? = some name ∧
    (projects.map (·.name))[j]? = some name

theorem not_shadowed_of_nodup {projects : List Project} (distinct : (projects.map (·.name)).Nodup)
    (i : Nat) : ¬ Shadowed projects i := by
  rintro ⟨j, name, hij, hi, hj⟩
  have hlt : i < (projects.map (·.name)).length := (List.getElem?_eq_some_iff.1 hi).1
  have hsame := (List.getElem?_inj hlt distinct).1 (hi.trans hj.symm)
  omega

theorem indexOf?_append_singleton (projects : List Project) (project : Project) (name : String) :
    indexOf? (projects ++ [project]) name =
      if project.name = name then some projects.length else indexOf? projects name := by
  rw [indexOf?, List.zipIdx_append, List.reverse_append, List.zipIdx_singleton,
    List.reverse_singleton, List.singleton_append, List.find?_cons, Nat.zero_add]
  by_cases hname : project.name = name
  · rw [if_pos hname, beq_iff_eq.2 hname]
    rfl
  · rw [if_neg hname, beq_eq_false_iff_ne.2 hname]
    rfl

/-- Behind the project that a name leads to, no project has it. -/
theorem name_ne_of_indexOf? {projects : List Project} {name : String} {i j : Nat}
    (h : indexOf? projects name = some i) (hij : i < j) {later : Project}
    (hj : projects[j]? = some later) : later.name ≠ name := by
  induction projects using List.reverseRecOn with
  | nil => cases h
  | append_singleton projects last ih =>
    rw [indexOf?_append_singleton] at h
    have hlength := (List.getElem?_eq_some_iff.1 hj).1
    rw [List.length_append, List.length_singleton] at hlength
    split at h
    -- nothing stands behind the last project
    · obtain rfl := Option.some.inj h
      omega
    · next hlast =>
      by_cases hend : j = projects.length
      · rw [hend, List.getElem?_concat_length] at hj
        obtain rfl := Option.some.inj hj
        exact hlast
      · rw [List.getElem?_append_left (by omega)] at hj
        exact ih h hj

/-- A project is found by its name unless it is shadowed. -/
theorem indexOf?_name_iff {projects : List Project} {i : Nat} {project : Project}
    (h : projects[i]? = some project) :
    indexOf? projects project.name = some i ↔ ¬ Shadowed projects i := by
  constructor
  · rintro hindex ⟨j, name, hij, hi, hj⟩
    rw [List.getElem?_map, h] at hi
    obtain rfl := Option.some.inj hi
    obtain ⟨later, hlater, hname⟩ := Option.map_eq_some_iff.1 (List.getElem?_map ▸ hj)
    exact name_ne_of_indexOf? hindex hij hlater hname
  · intro hshadowed
    match hindex : indexOf? projects project.name with
    | none =>
      exact absurd (List.mem_map_of_mem (List.mem_of_getElem? h)) (indexOf?_eq_none hindex)
    | some j =>
      obtain ⟨other, hj, hname, -⟩ := indexOf?_eq_some hindex
      rcases Nat.lt_trichotomy i j with hlt | rfl | hgt
      · refine absurd ⟨j, project.name, hlt, ?_, ?_⟩ hshadowed
        · rw [List.getElem?_map, h, Option.map_some]
        · rw [List.getElem?_map, hj, Option.map_some, hname]
      · rfl
      · exact absurd rfl (name_ne_of_indexOf? hindex hgt h)

/-- A resolution that succeeds treats the projects that are found by their names, and leaves those
that are shadowed as they were. -/
theorem getElem?_resolveDependencies {projects resolved : List Project}
    (h : resolveDependencies projects = (.ok (), resolved)) :
    resolved.length = projects.length ∧
    ∀ (i : Nat) (project : Project), projects[i]? = some project →
      ∃ project', resolved[i]? = some project' ∧
        (¬ Shadowed projects i → ResolvedTo projects project project') ∧
        (Shadowed projects i → project' = project) := by
  rw [resolveDependencies] at h
  split at h
  · cases h
  · split at h
    · cases h
    · next order horder =>
      obtain ⟨hlength, hall⟩ := resolveAll_ok (DependencyGraph.buildOrder_nodup horder) h
      refine ⟨hlength, fun i project hi => ?_⟩
      have hname : project.name ∈ order :=
        (DependencyGraph.mem_buildOrder horder).2 (List.mem_map_of_mem (List.mem_of_getElem? hi))
      obtain ⟨project', hget, hin, hout⟩ := hall i project hi
      refine ⟨project', hget, fun hfound => ?_, fun hshadowed => hout fun hmem => ?_⟩
      · exact hin ((mem_positions ((indexOf?_name_iff hi).2 hfound)).2 hname)
      -- the names of the order lead to other positions
      · obtain ⟨other, -, hindex⟩ := List.mem_filterMap.1 hmem
        obtain ⟨project'', hi', rfl, -⟩ := indexOf?_eq_some hindex
        obtain rfl := Option.some.inj (hi.symm.trans hi')
        exact (indexOf?_name_iff hi).1 hindex hshadowed

end BuildSteps.Resolution
