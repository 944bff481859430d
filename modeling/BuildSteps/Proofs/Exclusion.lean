import BuildSteps.Exclusion
import BuildSteps.Proofs.Forall

/-!
# What is left out

A file is left out when a pattern of the project or of the tool occurs in its text, or when its
text ends with the name of a precompiled file. All other files are admitted, in their order and each
once.
-/

namespace BuildSteps

/-! ## 1. Patterns -/

namespace PatternSet

def AllPatterns (texts : List String) : Prop :=
  ∀ text ∈ texts, ∃ pattern, Pattern.ofText text = .ok pattern

theorem readAll_ok_iff {texts : List String} {patterns : List Pattern} :
    readAll texts = .ok patterns ↔
      List.Forall₂ (fun text pattern => Pattern.ofText text = .ok pattern) texts patterns := by
  induction texts generalizing patterns with
  | nil => cases patterns <;> simp [readAll]
  | cons text texts ih =>
    rw [readAll]
    cases htext : Pattern.ofText text with
    | error fault => cases patterns <;> simp [htext]
    | ok first =>
      cases hrest : readAll texts with
      | error e => cases patterns <;> simp [← ih, hrest]
      | ok rest => cases patterns <;> simp [← ih, hrest, htext]

theorem ofTexts_ok_iff {texts : List String} {set : PatternSet} :
    ofTexts texts = .ok set ↔
      List.Forall₂ (fun text pattern => Pattern.ofText text = .ok pattern) texts set.patterns := by
  rw [← readAll_ok_iff, ofTexts]
  cases set
  cases readAll texts <;> simp

theorem exists_ofTexts_iff {texts : List String} :
    (∃ set, ofTexts texts = .ok set) ↔ AllPatterns texts := by
  constructor
  · rintro ⟨set, hset⟩ text htext
    obtain ⟨pattern, -, hpattern⟩ := (ofTexts_ok_iff.1 hset).exists_of_mem htext
    exact ⟨pattern, hpattern⟩
  · intro hall
    induction texts with
    | nil => exact ⟨⟨[]⟩, rfl⟩
    | cons text texts ih =>
      obtain ⟨pattern, hpattern⟩ := hall text List.mem_cons_self
      obtain ⟨set, hset⟩ := ih fun other hother => hall other (List.mem_cons_of_mem text hother)
      exact ⟨⟨pattern :: set.patterns⟩, ofTexts_ok_iff.2 (.cons hpattern (ofTexts_ok_iff.1 hset))⟩

end PatternSet

def Pattern.writtenOccursIn (written text : String) : Bool :=
  match Pattern.ofText written with
  | .ok pattern => pattern.occursIn text
  | .error _ => false

theorem PatternSet.matchesText_eq {texts : List String} {set : PatternSet}
    (h : ofTexts texts = .ok set) (text : String) :
    set.matchesText text = texts.any fun written => Pattern.writtenOccursIn written text := by
  obtain ⟨patterns⟩ := set
  have hread : List.Forall₂ _ texts patterns := ofTexts_ok_iff.1 h
  rw [matchesText]
  clear h
  induction hread with
  | nil => rfl
  | cons hfirst _ ih => rw [List.any_cons, List.any_cons, ih, Pattern.writtenOccursIn, hfirst]

/-! ## 2. Files -/

/-- Whether a tool with patterns of its own leaves a file of a project out: one of the patterns
occurs in the text of the file, or the text ends, whatever the case, with the name of the
precompiled header or source of a configuration. -/
def Project.leavesOut (project : Project) (toolPatterns : List String) (file : Path) : Bool :=
  ((project.excludedPatterns ++ toolPatterns).any fun written =>
      Pattern.writtenOccursIn written file.text) ||
    (project.configurations.flatMap (·.precompiledNames)).any fun name =>
      Text.lowercase name != "" && Text.endsWith (Text.lowercase file.text) (Text.lowercase name)

theorem Project.isPrecompiledFile_eq (project : Project) (file : Path) :
    project.isPrecompiledFile file =
      (project.configurations.flatMap (·.precompiledNames)).any fun name =>
        Text.lowercase name != "" &&
          Text.endsWith (Text.lowercase file.text) (Text.lowercase name) := by
  rw [isPrecompiledFile, endsWithAny, precompiledFileNames, Bool.eq_iff_iff]
  simp only [List.any_eq_true, List.mem_insertAllLast, List.not_mem_nil, false_or, List.mem_filter,
    List.mem_map, Bool.and_eq_true]
  constructor
  · rintro ⟨_, ⟨⟨name, hname, rfl⟩, hnonempty⟩, hends⟩
    exact ⟨name, hname, hnonempty, hends⟩
  · rintro ⟨name, hname, hnonempty, hends⟩
    exact ⟨_, ⟨⟨name, hname, rfl⟩, hnonempty⟩, hends⟩

namespace Exclusion

theorem exists_ofProject_iff {project : Project} {toolPatterns : List String} :
    (∃ exclusion, ofProject project toolPatterns = .ok exclusion) ↔
      PatternSet.AllPatterns (project.excludedPatterns ++ toolPatterns) := by
  rw [← PatternSet.exists_ofTexts_iff, ofProject]
  cases PatternSet.ofTexts (project.excludedPatterns ++ toolPatterns) <;> simp

theorem excludes_eq {project : Project} {toolPatterns : List String} {exclusion : Exclusion}
    (h : ofProject project toolPatterns = .ok exclusion) (file : Path) :
    exclusion.excludes file = project.leavesOut toolPatterns file := by
  rw [ofProject] at h
  split at h
  · cases h
  · next patterns hpatterns =>
    obtain rfl := Except.ok.inj h
    show (patterns.matchesText file.text || project.isPrecompiledFile file) = _
    rw [PatternSet.matchesText_eq hpatterns, Project.isPrecompiledFile_eq, Project.leavesOut]

theorem admitted_eq (exclusion : Exclusion) (files : List Path) :
    exclusion.admitted files =
      (files.filter (!exclusion.excludes ·)).eraseDupsBy Path.sameAs := by
  rw [admitted, Path.insertAllLast_nil]

end Exclusion

end BuildSteps
