import BuildSteps.Project.Configuration
import BuildSteps.Proofs.Firsts
import BuildSteps.Proofs.Text.Split

/-!
# Bundles without loss

Every define and include path that a configuration is given is in its bundle, once and in the place
where it was first given, and nothing else is. The line of defines is no loss either: it comes apart
at its blanks, because none of them holds one.
-/

namespace BuildSteps.Configuration

/-! ## 1. Include paths -/

theorem isIn_bundle_includePaths {conf : Configuration} {additional : List AdditionalDefinition}
    {p : Path} :
    p.isIn (conf.bundle additional).includePaths = true ↔
      p.isIn conf.includePaths = true ∨ p.isIn conf.dependenciesIncludePaths = true ∨
        p.isIn conf.privateIncludePaths = true := by
  rw [bundle, allIncludePaths, Path.isIn_insertAllLast, Path.isIn, Path.isIn, Path.isIn, Path.isIn,
    Path.isIn, List.any_append, List.any_append, Bool.or_eq_true, Bool.or_eq_true, List.any_nil,
    or_assoc]
  exact ⟨fun h => h.resolve_left Bool.false_ne_true, .inr⟩

/-! ## 2. Defines -/

theorem not_mem_stripBlanks (define : String) : ' ' ∉ (stripBlanks define).toList := by
  rw [stripBlanks, String.toList_ofList, List.mem_filter]
  exact fun h => by simp at h

theorem mem_allDefines {conf : Configuration} {additional : List AdditionalDefinition}
    {define : String} :
    define ∈ conf.allDefines additional ↔ define ≠ "" ∧
      ((∃ given ∈ conf.defines, stripBlanks given = define) ∨
        ∃ d ∈ additional, d.matchesTarget conf.target = true ∧
          ∃ given ∈ d.defines, stripBlanks given = define) := by
  rw [allDefines, List.mem_insertAllLast, List.mem_filter, List.mem_map, bne_iff_ne]
  simp only [List.not_mem_nil, false_or, List.mem_append, List.mem_flatMap, List.mem_filter]
  constructor
  · rintro ⟨⟨given, hgiven | ⟨d, ⟨hd, htarget⟩, hgiven⟩, rfl⟩, hne⟩
    · exact ⟨hne, .inl ⟨given, hgiven, rfl⟩⟩
    · exact ⟨hne, .inr ⟨d, hd, htarget, given, hgiven, rfl⟩⟩
  · rintro ⟨hne, ⟨given, hgiven, rfl⟩ | ⟨d, hd, htarget, given, hgiven, rfl⟩⟩
    · exact ⟨⟨given, .inl hgiven, rfl⟩, hne⟩
    · exact ⟨⟨given, .inr ⟨d, ⟨hd, htarget⟩, hgiven⟩, rfl⟩, hne⟩

theorem not_mem_define {conf : Configuration} {additional : List AdditionalDefinition}
    {define : String} (h : define ∈ (conf.allDefines additional).map ("-D" ++ ·)) :
    ' ' ∉ define.toList := by
  obtain ⟨stripped, hstripped, rfl⟩ := List.mem_map.1 h
  -- neither the option in front nor the stripped define has a blank
  rw [String.toList_append, List.mem_append]
  rintro (hdash | hblank)
  · exact absurd hdash (by decide)
  · rcases (mem_allDefines.1 hstripped).2 with ⟨given, -, rfl⟩ | ⟨_, -, -, given, -, rfl⟩
    · exact not_mem_stripBlanks given hblank
    · exact not_mem_stripBlanks given hblank

/-- The defines of a bundle that has some are what stands between its blanks. -/
theorem split_bundle_defines {conf : Configuration} {additional : List AdditionalDefinition}
    (h : conf.allDefines additional ≠ []) :
    Text.split ' ' (conf.bundle additional).defines =
      (conf.allDefines additional).map ("-D" ++ ·) :=
  Text.split_join (mt List.map_eq_nil_iff.1 h) fun _ => not_mem_define

/-- A define reaches the bundle unless it is blank. -/
theorem mem_bundle_defines {conf : Configuration} {additional : List AdditionalDefinition}
    {define : String} (hmem : define ∈ conf.defines) (hne : stripBlanks define ≠ "") :
    "-D" ++ stripBlanks define ∈ Text.split ' ' (conf.bundle additional).defines := by
  have hall : stripBlanks define ∈ conf.allDefines additional :=
    mem_allDefines.2 ⟨hne, .inl ⟨define, hmem, rfl⟩⟩
  rw [split_bundle_defines (List.ne_nil_of_mem hall)]
  exact List.mem_map_of_mem hall

/-! ## 3. The whole bundle -/

def matching (conf : Configuration) (additional : List AdditionalDefinition) :
    List AdditionalDefinition :=
  additional.filter fun d =>
    conf.target.platform ∈ d.platforms ∧ conf.target.devEnv ∈ d.devEnvs

def givenDefines (conf : Configuration) (additional : List AdditionalDefinition) : List String :=
  ((conf.defines ++ (conf.matching additional).flatMap (·.defines)).map stripBlanks).filter
    (· ≠ "")

theorem filter_matchesTarget (conf : Configuration) (additional : List AdditionalDefinition) :
    additional.filter (·.matchesTarget conf.target) = conf.matching additional := by
  refine List.filter_congr fun d _ => ?_
  rw [AdditionalDefinition.matchesTarget, List.contains_eq_mem, List.contains_eq_mem,
    Bool.decide_and]

theorem allDefines_eq (conf : Configuration) (additional : List AdditionalDefinition) :
    conf.allDefines additional = [].insertAllLast (conf.givenDefines additional) := by
  have hne : (· != "") = fun define : String => decide (define ≠ "") :=
    funext fun define => by rw [bne, decide_not, beq_eq_decide]
  rw [allDefines, filter_matchesTarget, hne, givenDefines]

theorem firstsBy_allDefines (conf : Configuration) (additional : List AdditionalDefinition) :
    List.FirstsBy id (conf.givenDefines additional) (conf.allDefines additional) := by
  rw [allDefines_eq]
  exact List.firstsBy_insertAllLast _

theorem bundle_congr {conf : Configuration} {additional other : List AdditionalDefinition}
    (h : conf.matching other = conf.matching additional) :
    conf.bundle other = conf.bundle additional := by
  rw [bundle, bundle, allDefines_eq, allDefines_eq, givenDefines, givenDefines, h]

/-- The defines of a bundle, split at its blanks, are the first occurrences of those given, and its
include paths are the first occurrences of the own, inherited and private ones. Definitions that do
not match the target leave no trace. -/
theorem bundle_exact (conf : Configuration) (additional : List AdditionalDefinition) :
    (∃ kept, List.FirstsBy id (conf.givenDefines additional) kept ∧
      (conf.givenDefines additional = [] → (conf.bundle additional).defines = "") ∧
      (conf.givenDefines additional ≠ [] →
        Text.split ' ' (conf.bundle additional).defines = kept.map ("-D" ++ ·))) ∧
    List.FirstsBy Path.components
      (conf.includePaths ++ conf.dependenciesIncludePaths ++ conf.privateIncludePaths)
      (conf.bundle additional).includePaths ∧
    ∀ other, conf.matching other = conf.matching additional →
      conf.bundle other = conf.bundle additional := by
  have hfirsts := conf.firstsBy_allDefines additional
  refine ⟨⟨_, hfirsts, fun hnone => ?_, fun hsome => ?_⟩, Path.firstsBy_insertAllLast _,
    fun other => bundle_congr⟩
  · rw [bundle, hfirsts.eq_nil_iff.2 hnone]
    rfl
  · exact split_bundle_defines (mt hfirsts.eq_nil_iff.1 hsome)

-- the second define is the first one without its blank, the third is blank
example (target : Target) :
    ({ empty target with defines := ["A B", "AB", "  ", "C"] } : Configuration).allDefines [] =
      ["AB", "C"] := by
  rfl

end BuildSteps.Configuration
