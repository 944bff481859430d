import BuildSteps.Proofs.Exclusion

/-!
# Precompiled files

A project and every exclusion made from it take the same files for precompiled ones: those whose
text ends, whatever the case, with a precompiled name of a configuration. The name may stand for
whole components of the path, and it may begin inside one.
-/

theorem List.suffix_iff_eq_or_cons_suffix {α : Type} {tail text : List α} :
    tail <:+ text ↔ text = tail ∨ ∃ a, a :: tail <:+ text := by
  constructor
  · rintro ⟨front, rfl⟩
    rcases front.eq_nil_or_concat with rfl | ⟨front, a, rfl⟩
    · exact .inl rfl
    · exact .inr ⟨a, front, by simp⟩
  · rintro (rfl | ⟨a, hsuffix⟩)
    · exact List.suffix_rfl
    · exact (List.suffix_cons a tail).trans hsuffix

namespace BuildSteps

namespace Text

theorem endsWith_iff {text tail : String} :
    endsWith text tail = true ↔ tail.toList <:+ text.toList :=
  List.isSuffixOf_iff_suffix

theorem lowercaseChar_ne_nil (c : Char) : lowercaseChar c ≠ [] := by
  rw [lowercaseChar]
  split
  · exact List.cons_ne_nil _ _
  · split <;> exact List.cons_ne_nil _ _

theorem lowercase_eq_empty_iff {text : String} : lowercase text = "" ↔ text = "" := by
  rw [← String.toList_eq_nil_iff, ← String.toList_eq_nil_iff, lowercase, String.toList_ofList]
  cases text.toList with
  | nil => exact Iff.rfl
  | cons c rest =>
    rw [lowercaseAfter]
    split
    · simp
    · simp [lowercaseChar_ne_nil]

end Text

/-! ## 1. Names at the end of paths -/

namespace Path

/-- Whether a path, whatever the case, is a name or ends with a separator and the name. -/
def isNamed (p : Path) (name : String) : Bool :=
  Text.lowercase p.text == Text.lowercase name ||
    Text.endsWith (Text.lowercase p.text) (String.ofList ('/' :: (Text.lowercase name).toList))

/-- Whether a path, whatever the case, ends with a name behind a character that separates nothing. -/
def EndsInside (p : Path) (name : String) : Prop :=
  ∃ c, c ≠ '/' ∧ Text.endsWith (Text.lowercase p.text)
    (String.ofList (c :: (Text.lowercase name).toList)) = true

theorem endsWith_lowercase_iff {p : Path} {name : String} :
    Text.endsWith (Text.lowercase p.text) (Text.lowercase name) = true ↔
      p.isNamed name = true ∨ p.EndsInside name := by
  simp only [isNamed, EndsInside, Bool.or_eq_true, beq_iff_eq, Text.endsWith_iff,
    String.toList_ofList]
  rw [List.suffix_iff_eq_or_cons_suffix, String.toList_inj]
  constructor
  · rintro (heq | ⟨c, hc⟩)
    · exact .inl (.inl heq)
    · by_cases hseparator : c = '/'
      · exact .inl (.inr (hseparator ▸ hc))
      · exact .inr ⟨c, hseparator, hc⟩
  · rintro ((heq | hnamed) | ⟨c, -, hinside⟩)
    · exact .inl heq
    · exact .inr ⟨'/', hnamed⟩
    · exact .inr ⟨c, hinside⟩

end Path

/-! ## 2. Precompiled files -/

theorem Configuration.mem_precompiledNames {conf : Configuration} {name : String} :
    name ∈ conf.precompiledNames ↔
      conf.precompiledHeader = some name ∨ conf.precompiledSource = some name := by
  rw [precompiledNames, List.mem_append, Option.mem_toList, Option.mem_toList]

namespace Project

def NamesPrecompiled (project : Project) (name : String) : Prop :=
  name ≠ "" ∧ ∃ conf ∈ project.configurations,
    conf.precompiledHeader = some name ∨ conf.precompiledSource = some name

theorem isPrecompiledFile_iff {project : Project} {file : Path} :
    project.isPrecompiledFile file = true ↔
      ∃ name, project.NamesPrecompiled name ∧
        (file.isNamed name = true ∨ file.EndsInside name) := by
  simp only [isPrecompiledFile_eq, List.any_eq_true, List.mem_flatMap,
    Configuration.mem_precompiledNames, Bool.and_eq_true, bne_iff_ne, ne_eq,
    Text.lowercase_eq_empty_iff, Path.endsWith_lowercase_iff, NamesPrecompiled]
  constructor
  · rintro ⟨name, ⟨conf, hconf, hname⟩, hnonempty, hends⟩
    exact ⟨name, ⟨hnonempty, conf, hconf, hname⟩, hends⟩
  · rintro ⟨name, ⟨hnonempty, conf, hconf, hname⟩, hends⟩
    exact ⟨name, ⟨conf, hconf, hname⟩, hnonempty, hends⟩

end Project

namespace Exclusion

theorem isPrecompiled_eq {project : Project} {toolPatterns : List String} {exclusion : Exclusion}
    (h : ofProject project toolPatterns = .ok exclusion) (file : Path) :
    exclusion.isPrecompiled file = project.isPrecompiledFile file := by
  rw [ofProject] at h
  split at h
  · cases h
  · obtain rfl := Except.ok.inj h
    rfl

theorem excludes_of_mem_admitted {exclusion : Exclusion} {files : List Path} {file : Path}
    (h : file ∈ exclusion.admitted files) : exclusion.excludes file = false := by
  rw [admitted_eq] at h
  have hkept := (List.eraseDupsBy_sublist Path.sameAs _).subset h
  rw [List.mem_filter, Bool.not_eq_true'] at hkept
  exact hkept.2

end Exclusion

namespace Project

def precompiling : Project :=
  { create "app" ⟨"/app"⟩ with
    configurations :=
      [{ Configuration.empty ⟨.win64, .vs2022, .debug⟩ with precompiledHeader := some "pch.h" }] }

theorem exclusion_precompiling :
    Exclusion.ofProject precompiling [] = .ok ⟨⟨[]⟩, ["pch.h"]⟩ := by
  decide +kernel

end Project

end BuildSteps
