import BuildSteps.Proofs.Path.Characters
import BuildSteps.Proofs.Path.Way
import BuildSteps.Proofs.Text.Tokens
import BuildSteps.Step

/-!
# Include paths on command lines

An include path is shown as the way that leads to it from a folder. No way is empty but that from
the folder to itself, whose option is left without an argument.
-/

namespace BuildSteps

def Text.unquoted (text : String) : String :=
  match text.toList with
  | '"' :: rest =>
    if ' ' ∈ rest ∧ rest.getLast? = some '"' then String.ofList rest.dropLast else text
  | _ => text

theorem Text.unquoted_quoted (p : Path) : unquoted p.quoted = p.text := by
  rw [Path.quoted]
  by_cases hblank : ' ' ∈ p.text.toList
  · have hchars : ("\"" ++ p.text ++ "\"").toList = '"' :: (p.text.toList ++ ['"']) := by
      rw [String.toList_append, String.toList_append, List.append_assoc]
      rfl
    rw [if_pos hblank, unquoted, hchars]
    show (if ' ' ∈ p.text.toList ++ ['"'] ∧ _ then String.ofList _ else _) = _
    rw [if_pos ⟨List.mem_append_left _ hblank, List.getLast?_concat⟩, List.dropLast_concat,
      String.ofList_toList]
  -- quotes that the path brings along stay
  · rw [if_neg hblank, unquoted]
    split
    · next rest hchars =>
      exact if_neg fun h => hblank (hchars ▸ List.mem_cons_of_mem _ h.1)
    · rfl

namespace Step

/-- The arguments of a meta-object step are its options and then its template. -/
theorem exists_arguments_of_mem_options {step : Step} (hkind : step.kind = .metaObjectCompile)
    {base : Option Path} {option : String} (h : option ∈ step.options base) :
    ∃ front back, step.arguments base =
      Text.join " " (front ++ option :: (back ++ [step.argumentsTemplate])) := by
  obtain ⟨front, back, hoptions⟩ := List.append_of_mem h
  refine ⟨front, back, ?_⟩
  rw [arguments, if_pos hkind, hoptions, List.append_assoc, List.cons_append]

theorem mem_options_of_mem_quotedIncludePaths {step : Step} {bundle : Bundle}
    (hbundle : step.resolved = some bundle) {base : Option Path} {rendering : String}
    (h : rendering ∈ bundle.quotedIncludePaths base) : "-I" ++ rendering ∈ step.options base := by
  rw [options, hbundle]
  exact List.mem_append_left _ (List.mem_append_right _ (List.mem_map_of_mem h))

/-- **Include paths lead back.** Take an include path of the bundle of a meta-object step, and a
folder, both absolute and without `..`. The step shows the path as `-I` and then the way to it from
the folder, in quotes if it has a blank. Followed from the folder the way ends at the path, and it
is a text of its own unless the path is the folder. -/
theorem includePath_leadsBack {step : Step} (hkind : step.kind = .metaObjectCompile)
    {bundle : Bundle} (hbundle : step.resolved = some bundle) {i : Nat} {p base : Path}
    (hi : bundle.includePaths[i]? = some p) (hp : p.IsStraight) (hbase : base.IsStraight) :
    ∃ rendering, (bundle.quotedIncludePaths (some base))[i]? = some rendering ∧
      ((⟨Text.unquoted rendering⟩ : Path).resolveFrom base).sameAs p = true ∧
      (Text.unquoted rendering ≠ "" ↔ ¬ p.sameAs base = true) ∧
      (∃ front back, step.arguments (some base) =
        Text.join " " (front ++ ("-I" ++ rendering) :: (back ++ [step.argumentsTemplate]))) ∧
      ('"' ∉ p.text.toList →
        Text.tokens ("-I" ++ rendering) = ["-I" ++ Text.unquoted rendering]) := by
  have hrendering : (bundle.quotedIncludePaths (some base))[i]? =
      some (p.relativeTo (some base)).quoted := by
    rw [Bundle.quotedIncludePaths, List.getElem?_map, hi, Option.map_some]
  have hoption := mem_options_of_mem_quotedIncludePaths hbundle (List.mem_of_getElem? hrendering)
  refine ⟨_, hrendering, ?_, ?_, exists_arguments_of_mem_options hkind hoption, fun hquote => ?_⟩
  · rw [Text.unquoted_quoted]
    exact Path.resolveFrom_relativeTo hp hbase
  · rw [Text.unquoted_quoted]
    exact not_congr (Path.relativeTo_text_eq_empty_iff hp hbase)
  · rw [Text.unquoted_quoted]
    exact Text.tokens_append_quoted (by decide) (by decide)
      (Path.not_mem_relativeTo (by decide) (by decide) hquote (some base))

def surroundedHeader : Step :=
  (Step.metaObject ⟨.win64, .vs2022, .debug⟩ ⟨"/qt/moc"⟩ ⟨"/repo/gen"⟩ ⟨"/repo/gen"⟩
    ⟨"/repo/widget.h"⟩).attach
      ⟨"", [⟨"/repo/gen/ui"⟩, ⟨"/"⟩, ⟨"/repo/my inc"⟩, ⟨"/repo/gen"⟩], none⟩

theorem includePath_leadsBack_beside :
    let bundle : Bundle := ⟨"", [⟨"/repo/gen/ui"⟩, ⟨"/"⟩, ⟨"/repo/my inc"⟩, ⟨"/repo/gen"⟩], none⟩
    let p : Path := ⟨"/repo/my inc"⟩
    let base : Path := ⟨"/repo/gen"⟩
    surroundedHeader.kind = .metaObjectCompile ∧ surroundedHeader.resolved = some bundle ∧
      bundle.includePaths[2]? = some p ∧ p.IsStraight ∧ base.IsStraight ∧
      ∃ rendering, (bundle.quotedIncludePaths (some base))[2]? = some rendering ∧
        ((⟨Text.unquoted rendering⟩ : Path).resolveFrom base).sameAs p = true ∧
        (Text.unquoted rendering ≠ "" ↔ ¬ p.sameAs base = true) ∧
        (∃ front back, surroundedHeader.arguments (some base) =
          Text.join " " (front ++ ("-I" ++ rendering) ::
            (back ++ [surroundedHeader.argumentsTemplate]))) ∧
        ('"' ∉ p.text.toList →
          Text.tokens ("-I" ++ rendering) = ["-I" ++ Text.unquoted rendering]) := by
  intro bundle p base
  have hkind : surroundedHeader.kind = .metaObjectCompile := by decide +kernel
  have hbundle : surroundedHeader.resolved = some bundle := by decide +kernel
  have hp : p.IsStraight := by decide +kernel
  have hbase : base.IsStraight := by decide +kernel
  exact ⟨hkind, hbundle, rfl, hp, hbase, includePath_leadsBack hkind hbundle rfl hp hbase⟩

/-- The option of the folder itself takes the next one as its argument. -/
theorem includePath_empty_at_base :
    (⟨"/repo/gen"⟩ : Path).IsStraight ∧
      surroundedHeader.resolved.map (·.quotedIncludePaths (some ⟨"/repo/gen"⟩)) =
        some ["ui", "../..", "\"../my inc\"", ""] ∧
      Text.unquoted "" = "" ∧
      Text.tokens (surroundedHeader.commandLine (some ⟨"/repo/gen"⟩)) =
        ["/qt/moc", "-Iui", "-I../..", "-I../my inc", "-I", "-f../widget.h", "../widget.h", "-o",
          "moc_widget.cpp"] := by
  decide +kernel

end Step

end BuildSteps
