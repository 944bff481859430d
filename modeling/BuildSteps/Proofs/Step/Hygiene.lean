import BuildSteps.Proofs.Step.CommandLine

/-!
# The two names in a template

The input and the output are filled in one after the other, and in everything that stands on the
line, not in the template alone. So an option that has one of their names is changed, and an input
that has the name of the output is changed after it was filled in.
-/

namespace BuildSteps

namespace Text

/-! ## 1. Two replacements -/

/-- Replaces two patterns from left to right; the first `skip` characters belong to an occurrence
that has been replaced already. What has been put in is not looked at again. -/
def replaceBothFrom (pattern replacement pattern' replacement' : List Char) :
    Nat → List Char → List Char
  | _, [] => []
  | skip + 1, _ :: rest => replaceBothFrom pattern replacement pattern' replacement' skip rest
  | 0, c :: rest =>
    if pattern.isPrefixOf (c :: rest) then
      replacement ++
        replaceBothFrom pattern replacement pattern' replacement' (pattern.length - 1) rest
    else if pattern'.isPrefixOf (c :: rest) then
      replacement' ++
        replaceBothFrom pattern replacement pattern' replacement' (pattern'.length - 1) rest
    else c :: replaceBothFrom pattern replacement pattern' replacement' 0 rest

def fillInBoth (input output text : String) : String :=
  String.ofList (replaceBothFrom "[input]".toList input.toList "[output]".toList output.toList 0
    text.toList)

variable {words : List String} {input output : String}

/-- The input stands at the end of words, in which it has replaced its name already. -/
theorem replace_filled (houtput : ∀ word ∈ words ++ [input], ¬ "[output]".toList <:+: word.toList)
    (hinput : input = "[input]" ∨ ∀ word ∈ words, ¬ "[input]".toList <:+: word.toList) :
    replace "[output]" output (join " " (words.map (replace "[input]" input) ++ [input])) =
      join " " (words ++ [input]) := by
  have hwords : words.map (replace "[input]" input) = words := by
    refine (List.map_congr_left fun word hword => ?_).trans (List.map_id' words)
    exact (replace_eq_self_iff (by decide)).2 (hinput.symm.imp_left fun h => h word hword)
  rw [hwords]
  refine replace_of_absent (by decide) fun hinfix => ?_
  obtain ⟨word, hword, h⟩ := (infix_join_iff (by decide) (by decide)).1 hinfix
  exact houtput word hword h

/-- An output with a dot cannot have been filled in, since no replacement takes dots away. -/
theorem of_replace_filled (hdot : '.' ∈ output.toList)
    (h : replace "[output]" output (join " " (words.map (replace "[input]" input) ++ [input])) =
      join " " (words ++ [input])) :
    (∀ word ∈ words ++ [input], ¬ "[output]".toList <:+: word.toList) ∧
      (input = "[input]" ∨ ∀ word ∈ words, ¬ "[input]".toList <:+: word.toList) := by
  have hplain (hne : words ≠ []) :
      join " " (words ++ [input]) = join " " words ++ " " ++ input :=
    join_append " " hne (List.cons_ne_nil input [])
  have hfilled (hne : words ≠ []) : join " " (words.map (replace "[input]" input) ++ [input]) =
      replace "[input]" input (join " " words) ++ " " ++ input := by
    rw [replace_join (by decide) (by decide)]
    exact join_append " " (mt List.map_eq_nil_iff.1 hne) (List.cons_ne_nil input [])
  have hcount : (join " " (words ++ [input])).toList.count '.' ≤
      (join " " (words.map (replace "[input]" input) ++ [input])).toList.count '.' := by
    by_cases hne : words = []
    · rw [hne]
      exact Nat.le_refl _
    · have hfront := (@count_replace "[input]" input '.' (by decide) (by decide)
        (join " " words)).1
      rw [hfilled hne, hplain hne]
      simp only [String.toList_append, List.count_append]
      exact Nat.add_le_add_right (Nat.add_le_add_right hfront _) _
  have houtput : ¬ "[output]".toList <:+:
      (join " " (words.map (replace "[input]" input) ++ [input])).toList := by
    intro hinfix
    have hlt := (@count_replace "[output]" output '.' (by decide) (by decide) _).2 hdot hinfix
    rw [h] at hlt
    omega
  replace h : join " " (words.map (replace "[input]" input) ++ [input]) = join " " (words ++ [input]) :=
    (Eq.symm <| replace_of_absent (by decide) houtput).trans h
  refine ⟨fun word hword hinfix => houtput ?_, ?_⟩
  · rw [h]
    exact (infix_join_iff (by decide) (by decide)).2 ⟨word, hword, hinfix⟩
  · by_cases hne : words = []
    · exact .inr fun word hword => absurd (hne ▸ hword) List.not_mem_nil
    · rw [hfilled hne, hplain hne, String.append_left_inj, String.append_left_inj,
        replace_eq_self_iff (by decide)] at h
      refine h.symm.imp_right fun habsent word hword hinfix => habsent ?_
      exact (infix_join_iff (by decide) (by decide)).2 ⟨word, hword, hinfix⟩

end Text

namespace Step

/-! ## 2. Steps of the Qt generators -/

/-- The step is one that a constructor makes for meta-objects, a resource collection or a form, or
what becomes of it when bundles are attached. -/
inductive Made : Step → Prop
  | metaObject (target : Target) (executable placeholderFolder outputFolder source : Path) :
    Made (Step.metaObject target executable placeholderFolder outputFolder source)
  | projectVariant {step variant : Step} :
    Made step → step.projectVariant? = some variant → Made variant
  | resource (target : Target) (executable outputFolder source : Path) :
    Made (Step.resource target executable outputFolder source)
  | form (target : Target) (executable outputFolder source : Path) :
    Made (Step.form target executable outputFolder source)
  | attach {step : Step} (bundle : Bundle) : Made step → Made (step.attach bundle)

def frontWords : StepKind → List String
  | .resourceCompile => ["-binary"]
  | _ => []

def shownOptions (step : Step) (base : Option Path) : List String :=
  if step.kind = .metaObjectCompile then step.options base else []

/-- The line with the options as they are and the two paths in the template, where the input is
meant and where the output is meant. -/
def meantLine (step : Step) (base : Option Path) : String :=
  let input := (step.keyInput.relativeTo base).quoted
  let output := (step.output.relativeTo base).quoted
  step.executable.quoted ++ " " ++
    Text.join " " (step.shownOptions base ++ [Text.fillInBoth input output step.argumentsTemplate])

/-- No option has one of the two names, nor has the input that of the output; an input that is its
own name can be filled in everywhere. -/
structure Hygienic (step : Step) (base : Option Path) : Prop where
  options : ∀ option ∈ step.shownOptions base, ¬ "[output]".toList <:+: option.toList
  input : ¬ "[output]".toList <:+: (step.keyInput.relativeTo base).quoted.toList
  unchanged : (step.keyInput.relativeTo base).quoted = "[input]" ∨
    ∀ option ∈ step.shownOptions base, ¬ "[input]".toList <:+: option.toList

section Lines

variable {step : Step} {base : Option Path}

-- both templates are joined from their words
theorem template_files : "[input] -o [output]" = Text.join " " ["[input]", "-o", "[output]"] := by
  decide +kernel

theorem template_binary :
    "-binary [input] -o [output]" = Text.join " " ["-binary", "[input]", "-o", "[output]"] := by
  decide +kernel

/-- What all steps have in common, whatever became of them. -/
theorem Made.frame (h : Made step) :
    step.argumentsTemplate =
        Text.join " " (frontWords step.kind ++ ["[input]", "-o", "[output]"]) ∧
      ∃ source outputFolder, step.output = outputPath source step.kind outputFolder := by
  induction h with
  | metaObject target executable placeholderFolder outputFolder source =>
    rw [Step.metaObject]
    split <;> exact ⟨template_files, source, outputFolder, by rw [Step.base]⟩
  | projectVariant _ hvariant ih =>
    obtain ⟨intermediate, -, rfl⟩ := Option.map_eq_some_iff.1 hvariant
    exact ih
  | resource target executable outputFolder source =>
    exact ⟨template_binary, source, outputFolder, by rw [Step.resource, Step.base]⟩
  | form target executable outputFolder source =>
    exact ⟨template_files, source, outputFolder, by rw [Step.form, Step.base]⟩
  | attach bundle _ ih =>
    rw [Step.attach]
    split <;> exact ih

/-- The name of an output has a dot, and so has the way to it. -/
theorem Made.dot_mem_output (h : Made step)
    (hbase : ∀ folder ∈ base, ¬ folder.sameAs step.output = true) :
    '.' ∈ (step.output.relativeTo base).quoted.toList := by
  obtain ⟨-, source, outputFolder, houtput⟩ := h.frame
  have hdot : '.' ∈ (outputName source step.kind).toList := by
    rw [outputName_eq, String.toList_append]
    refine List.mem_append_right _ ?_
    cases step.kind <;> cases source.isCppSource <;> decide
  rw [houtput] at hbase ⊢
  have hmem := Path.dot_mem_relativeTo_join (isName_outputName source step.kind) hdot hbase
  rw [Path.quoted]
  split
  · rw [String.toList_append, String.toList_append]
    exact List.mem_append_left _ (List.mem_append_right _ hmem)
  · exact hmem

theorem arguments_eq (step : Step) (base : Option Path) :
    step.arguments base = Text.join " " (step.shownOptions base ++ [step.argumentsTemplate]) := by
  rw [arguments, shownOptions]
  split <;> rfl

theorem fillInBoth_template (input output : String) (kind : StepKind) :
    Text.fillInBoth input output (Text.join " " (frontWords kind ++ ["[input]", "-o", "[output]"])) =
      Text.join " " (frontWords kind ++ [input, "-o", output]) := by
  rw [Text.fillInBoth, ← String.toList_inj, String.toList_ofList]
  cases kind with
  | resourceCompile =>
    show "-binary ".toList ++ (input.toList ++ (" -o ".toList ++ (output.toList ++ []))) = _
    simp [frontWords, Text.join]
  | _ =>
    show input.toList ++ (" -o ".toList ++ (output.toList ++ [])) = _
    simp [frontWords, Text.join]

theorem join_files (words : List String) (input output : String) :
    Text.join " " (words ++ [input, "-o", output]) =
      Text.join " " (words ++ [input]) ++ " " ++ ("-o" ++ " " ++ output) := by
  have hsplit : words ++ [input, "-o", output] = (words ++ [input]) ++ ["-o", output] := by
    rw [List.append_assoc]
    rfl
  rw [hsplit, Text.join_append " " (List.append_ne_nil_of_right_ne_nil words
    (List.cons_ne_nil input [])) (List.cons_ne_nil "-o" [output])]
  rfl

theorem Made.commandLine_eq (h : Made step) :
    step.commandLine base = step.executable.quoted ++ " " ++
      (Text.replace "[output]" (step.output.relativeTo base).quoted (Text.join " "
          ((step.shownOptions base ++ frontWords step.kind).map
            (Text.replace "[input]" (step.keyInput.relativeTo base).quoted) ++
              [(step.keyInput.relativeTo base).quoted])) ++
        " " ++ ("-o" ++ " " ++ (step.output.relativeTo base).quoted)) := by
  have hkeep (text : String) : Text.replace "[input]" text "-o" = "-o" ∧
      Text.replace "[input]" text "[output]" = "[output]" ∧
      Text.replace "[output]" text "-o" = "-o" := by
    refine ⟨?_, ?_, ?_⟩ <;> exact Text.replace_of_absent (by decide) (by decide)
  rw [commandLine, arguments_eq, h.frame.1, Text.join_append_join " " _
    (List.append_ne_nil_of_right_ne_nil _ (List.cons_ne_nil _ _)), ← List.append_assoc]
  rw [Text.replace_join (by decide) (by decide), List.map_append, List.map_cons, List.map_cons,
    List.map_cons, List.map_nil, Text.replace_self (by decide), (hkeep _).1, (hkeep _).2.1,
    join_files, Text.replace_append_blank (by decide) (by decide),
    Text.replace_append_blank (by decide) (by decide), (hkeep _).2.2,
    Text.replace_self (by decide)]

theorem Made.meantLine_eq (h : Made step) :
    step.meantLine base = step.executable.quoted ++ " " ++
      (Text.join " " (step.shownOptions base ++ frontWords step.kind ++
          [(step.keyInput.relativeTo base).quoted]) ++
        " " ++ ("-o" ++ " " ++ (step.output.relativeTo base).quoted)) := by
  rw [meantLine, h.frame.1, fillInBoth_template, Text.join_append_join " " _
    (List.append_ne_nil_of_right_ne_nil _ (List.cons_ne_nil _ _)), ← List.append_assoc, join_files]

theorem not_infix_frontWords {word : String} {kind : StepKind} (h : word ∈ frontWords kind) :
    NamesNothing word := by
  unfold frontWords at h
  split at h
  · exact List.mem_singleton.1 h ▸ ⟨by decide, by decide⟩
  · cases h

/-- **The names are filled in where they are not meant.** The line of a step that a constructor makes
is the one that is meant just when no option has the name of the input or of the output and the
input has not the name of the output. The other direction takes for granted that the line is not
relative to the output itself, whose way would be empty. -/
theorem commandLine_eq_meantLine_iff (made : Made step) (base : Option Path) :
    (step.Hygienic base → step.commandLine base = step.meantLine base) ∧
      (step.commandLine base = step.meantLine base →
        step.Hygienic base ∨ ∃ folder ∈ base, folder.sameAs step.output = true) := by
  rw [made.commandLine_eq, made.meantLine_eq, String.append_right_inj, String.append_left_inj,
    String.append_left_inj]
  constructor
  · intro h
    refine Text.replace_filled (fun word hword => ?_) (h.unchanged.imp_right fun hoptions => ?_)
    · rcases List.mem_append.1 hword with hword | hword
      · exact (List.mem_append.1 hword).elim (h.options word) fun hword =>
          (not_infix_frontWords hword).2
      · exact List.mem_singleton.1 hword ▸ h.input
    · intro word hword
      exact (List.mem_append.1 hword).elim (hoptions word) fun hword =>
        (not_infix_frontWords hword).1
  · intro h
    by_contra! hnot
    obtain ⟨hunhygienic, hbase⟩ := hnot
    obtain ⟨houtput, hinput⟩ := Text.of_replace_filled (made.dot_mem_output hbase) h
    refine hunhygienic ⟨fun option hoption => ?_, ?_, hinput.imp_right fun hwords option hoption => ?_⟩
    · exact houtput option (List.mem_append_left _ (List.mem_append_left _ hoption))
    · exact houtput _ (List.mem_append_right _ (List.mem_singleton_self _))
    · exact hwords option (List.mem_append_left _ hoption)

end Lines

instance (step : Step) (base : Option Path) : Decidable (step.Hygienic base) :=
  decidable_of_iff
    ((∀ option ∈ step.shownOptions base, ¬ "[output]".toList <:+: option.toList) ∧
      ¬ "[output]".toList <:+: (step.keyInput.relativeTo base).quoted.toList ∧
      ((step.keyInput.relativeTo base).quoted = "[input]" ∨
        ∀ option ∈ step.shownOptions base, ¬ "[input]".toList <:+: option.toList))
    ⟨fun ⟨options, input, unchanged⟩ => ⟨options, input, unchanged⟩,
      fun ⟨options, input, unchanged⟩ => ⟨options, input, unchanged⟩⟩

/-- One step whose line is the one that is meant, and one whose line is not: its input has the name
of the output. -/
theorem commandLine_eq_meantLine_iff_named :
    Made (spacedHeader.attach spacedBundle) ∧ Made misnamedForm ∧
      (spacedHeader.attach spacedBundle).commandLine (some ⟨"/my repo/src"⟩) =
        (spacedHeader.attach spacedBundle).meantLine (some ⟨"/my repo/src"⟩) ∧
      misnamedForm.commandLine none ≠ misnamedForm.meantLine none := by
  have header : Made (spacedHeader.attach spacedBundle) := .attach _ (.metaObject _ _ _ _ _)
  have form : Made misnamedForm := .form _ _ _ _
  have hygienic : (spacedHeader.attach spacedBundle).Hygienic (some ⟨"/my repo/src"⟩) := by
    decide +kernel
  have unhygienic : ¬ misnamedForm.Hygienic none := by decide +kernel
  refine ⟨header, form, (commandLine_eq_meantLine_iff header _).1 hygienic, fun h => ?_⟩
  rcases (commandLine_eq_meantLine_iff form none).2 h with h | ⟨folder, hfolder, -⟩
  · exact unhygienic h
  · cases hfolder

def plainHeader : Step :=
  Step.metaObject ⟨.win64, .vs2022, .debug⟩ ⟨"/qt/moc"⟩ ⟨"/repo/gen"⟩ ⟨"/repo/gen"⟩
    ⟨"/repo/widget.h"⟩

def namingBundle : Bundle where
  defines := "-DTEXT=[input]"
  includePaths := []
  forcedInclude := none

/-- The define is not on the line as it was given. -/
theorem commandLine_rewrites_define :
    Made (plainHeader.attach namingBundle) ∧
      (plainHeader.attach namingBundle).arguments none =
        "-DTEXT=[input] -f/repo/widget.h [input] -o [output]" ∧
      (plainHeader.attach namingBundle).meantLine none =
        "/qt/moc -DTEXT=[input] -f/repo/widget.h /repo/widget.h -o /repo/gen/moc_widget.cpp" ∧
      (plainHeader.attach namingBundle).commandLine none =
        "/qt/moc -DTEXT=/repo/widget.h -f/repo/widget.h /repo/widget.h -o /repo/gen/moc_widget.cpp" :=
  ⟨.attach _ (.metaObject _ _ _ _ _), by decide +kernel, by decide +kernel, by decide +kernel⟩

end Step

end BuildSteps
