import BuildSteps.Proofs.Path.Characters
import BuildSteps.Proofs.Text.Replace
import BuildSteps.Proofs.Text.Tokens
import BuildSteps.Proofs.Tool.Outputs

/-!
# Reading command lines back

A path with blanks stands in quotes on a command line, so that it is read back as one token. The
template of a schema step is the place where paths stand without quotes.
-/

namespace BuildSteps

theorem Path.not_mem_forwardSlashes {c : Char} {p : Path} (hsep : c ≠ '/') (h : c ∉ p.text.toList) :
    c ∉ p.forwardSlashes.toList := by
  rw [forwardSlashes, String.toList_ofList, List.mem_map]
  rintro ⟨d, hd, hsame⟩
  split at hsame
  · exact hsep hsame.symm
  · exact h (hsame ▸ hd)

/-- The quotes around a path bring in nothing but quotes. -/
theorem Path.not_infix_quoted {pattern : List Char} {p : Path} (hquote : '"' ∉ pattern)
    (h : ¬ pattern <:+: p.text.toList) : ¬ pattern <:+: p.quoted.toList := by
  have hne : pattern ≠ [] := fun hnil => h (hnil ▸ List.nil_infix)
  rw [quoted]
  split
  · rw [String.toList_append, String.toList_append, List.append_assoc]
    show ¬ pattern <:+: '"' :: (p.text.toList ++ ['"'])
    rw [List.infix_cons_iff, List.infix_concat_iff, List.prefix_cons_iff, List.suffix_concat_iff]
    rintro ((hnil | ⟨t, rfl, -⟩) | (hnil | ⟨t, rfl, -⟩) | hinside)
    · exact hne hnil
    · exact hquote List.mem_cons_self
    · exact hne hnil
    · exact hquote (List.mem_append_right t List.mem_cons_self)
    · exact h hinside
  · exact h

namespace Step

/-! ## 1. What a step means to pass on -/

/-- The step is one that a constructor makes from an executable, an output folder and a source. -/
inductive MadeFrom (executable outputFolder source : Path) : Step → Prop
  | metaObject (target : Target) (placeholderFolder : Path) :
    MadeFrom executable outputFolder source
      (Step.metaObject target executable placeholderFolder outputFolder source)
  | projectVariant {target : Target} {placeholderFolder : Path} {variant : Step} :
    '"' ∉ placeholderFolder.text.toList →
    (Step.metaObject target executable placeholderFolder outputFolder source).projectVariant? =
      some variant →
    MadeFrom executable outputFolder source variant
  | resource (target : Target) :
    MadeFrom executable outputFolder source (Step.resource target executable outputFolder source)
  | form (target : Target) :
    MadeFrom executable outputFolder source (Step.form target executable outputFolder source)
  | schema (target : Target) :
    MadeFrom executable outputFolder source (Step.schema target executable outputFolder source)

def meantOptions (step : Step) (base : Option Path) : List String :=
  (match step.resolved with
    | none => []
    | some bundle =>
      (if bundle.defines.isEmpty then [] else Text.split ' ' bundle.defines) ++
        bundle.includePaths.map fun p => "-I" ++ (p.relativeTo base).text) ++
    step.forceIncludes.map fun p => "-f" ++ (p.relativeTo base).text

/-- The arguments that a step means to pass on, each as one text. -/
def meantArguments (step : Step) (outputFolder : Path) (base : Option Path) : List String :=
  let input := (step.keyInput.relativeTo base).text
  let output := (step.output.relativeTo base).text
  match step.kind with
  | .metaObjectCompile => step.meantOptions base ++ [input, "-o", output]
  | .resourceCompile => ["-binary", input, "-o", output]
  | .uiCompile => [input, "-o", output]
  | .schemaCompile =>
    ["--proto_path=" ++ (step.sourceFile.parent?.map Path.forwardSlashes).getD "",
      step.sourceFile.fileName, "--cpp_out=" ++ outputFolder.forwardSlashes]

/-! ## 2. Texts without quotes -/

end Step

structure Bundle.Unquoted (bundle : Bundle) : Prop where
  defines : '"' ∉ bundle.defines.toList
  includePaths : ∀ p ∈ bundle.includePaths, '"' ∉ p.text.toList
  forcedInclude : ∀ p ∈ bundle.forcedInclude, '"' ∉ p.text.toList

namespace Step

structure Unquoted (step : Step) : Prop where
  executable : '"' ∉ step.executable.text.toList
  keyInput : '"' ∉ step.keyInput.text.toList
  output : '"' ∉ step.output.text.toList
  forceIncludes : ∀ p ∈ step.forceIncludes, '"' ∉ p.text.toList
  bundle : ∀ bundle ∈ step.resolved, bundle.Unquoted

theorem not_mem_outputPath {source outputFolder : Path} (hsource : '"' ∉ source.text.toList)
    (hfolder : '"' ∉ outputFolder.text.toList) (kind : StepKind) :
    '"' ∉ (outputPath source kind outputFolder).text.toList := by
  have haffixes : '"' ∉ (kind.affixes source.isCppSource).1.toList ∧
      '"' ∉ (kind.affixes source.isCppSource).2.toList := by
    cases kind <;> cases source.isCppSource <;> decide
  refine Path.not_mem_join (by decide) hfolder ?_
  show '"' ∉ (outputName source kind).toList
  rw [outputName_eq, String.toList_append, String.toList_append, List.mem_append, List.mem_append]
  rintro ((hfront | hstem) | hend)
  · exact haffixes.1 hfront
  · exact Path.not_mem_fileStem hsource hstem
  · exact haffixes.2 hend

def templateWords (source outputFolder : Path) : StepKind → List String
  | .metaObjectCompile | .uiCompile => ["[input]", "-o", "[output]"]
  | .resourceCompile => ["-binary", "[input]", "-o", "[output]"]
  | .schemaCompile =>
    ["--proto_path=" ++ (source.parent?.map Path.forwardSlashes).getD "", source.fileName,
      "--cpp_out=" ++ outputFolder.forwardSlashes]

theorem not_mem_templateWords {source outputFolder : Path} (hsource : '"' ∉ source.text.toList)
    (hfolder : '"' ∉ outputFolder.text.toList) {kind : StepKind} {word : String}
    (h : word ∈ templateWords source outputFolder kind) : '"' ∉ word.toList := by
  have hinput : ∀ text ∈ ["[input]", "-o", "[output]"], '"' ∉ text.toList := by decide
  cases kind with
  | metaObjectCompile => exact hinput word h
  | uiCompile => exact hinput word h
  | resourceCompile =>
    rcases List.mem_cons.1 h with rfl | h
    · decide
    · exact hinput word h
  | schemaCompile =>
    simp only [templateWords, List.mem_cons, List.not_mem_nil, or_false] at h
    rcases h with rfl | rfl | rfl
    · rw [String.toList_append, List.mem_append]
      rintro (hoption | hparent)
      · exact absurd hoption (by decide)
      · cases hfolder : source.parent? with
        | none =>
          rw [hfolder] at hparent
          exact List.not_mem_nil hparent
        | some parent =>
          rw [hfolder] at hparent
          exact Path.not_mem_forwardSlashes (by decide)
            (Path.not_mem_parent? (by decide) hsource hfolder) hparent
    · exact Path.not_mem_fileName hsource
    · rw [String.toList_append, List.mem_append]
      rintro (hoption | hout)
      · exact absurd hoption (by decide)
      · exact Path.not_mem_forwardSlashes (by decide) hfolder hout

section Made

variable {executable outputFolder source : Path} {step : Step}

/-- What all constructors have in common. -/
theorem MadeFrom.frame (h : MadeFrom executable outputFolder source step) :
    step.executable = executable ∧ step.sourceFile = source ∧ step.resolved = none ∧
      step.argumentsTemplate = Text.join " " (templateWords source outputFolder step.kind) := by
  have hmeta (target : Target) (placeholderFolder : Path) :
      let step := Step.metaObject target executable placeholderFolder outputFolder source
      step.executable = executable ∧ step.sourceFile = source ∧ step.resolved = none ∧
        step.argumentsTemplate = Text.join " " (templateWords source outputFolder step.kind) := by
    rw [Step.metaObject]
    split <;> exact ⟨rfl, rfl, rfl, rfl⟩
  cases h with
  | metaObject target placeholderFolder => exact hmeta target placeholderFolder
  | projectVariant _ hvariant =>
    obtain ⟨intermediate, -, rfl⟩ := Option.map_eq_some_iff.1 hvariant
    exact hmeta _ _
  | resource target => exact ⟨rfl, rfl, rfl, rfl⟩
  | form target => exact ⟨rfl, rfl, rfl, rfl⟩
  | schema target =>
    have hblank : " --cpp_out=" = " " ++ "--cpp_out=" := by decide
    refine ⟨rfl, rfl, rfl, ?_⟩
    simp only [Step.schema, Step.base, templateWords, Text.join, hblank, String.append_assoc]

theorem MadeFrom.unquoted (h : MadeFrom executable outputFolder source step)
    (hexecutable : '"' ∉ executable.text.toList) (hfolder : '"' ∉ outputFolder.text.toList)
    (hsource : '"' ∉ source.text.toList) : step.Unquoted := by
  have hbase (kind : StepKind) (target : Target) (template : String) :
      (base kind target executable source (outputPath source kind outputFolder) template).Unquoted :=
    { executable := hexecutable
      keyInput := hsource
      output := not_mem_outputPath hsource hfolder kind
      forceIncludes := fun p hp => absurd hp List.not_mem_nil
      bundle := fun bundle hbundle => by cases hbundle }
  have hmeta (target : Target) (placeholderFolder : Path) :
      (Step.metaObject target executable placeholderFolder outputFolder source).Unquoted := by
    rw [Step.metaObject]
    split
    · exact { hbase .metaObjectCompile target "[input] -o [output]" with }
    · exact { hbase .metaObjectCompile target "[input] -o [output]" with
        forceIncludes := fun p hp => List.mem_singleton.1 hp ▸ hsource }
  cases h with
  | metaObject target placeholderFolder => exact hmeta target placeholderFolder
  | @projectVariant target placeholderFolder variant hplaceholder hvariant =>
    obtain ⟨intermediate, hintermediate, rfl⟩ := Option.map_eq_some_iff.1 hvariant
    have hinput : '"' ∉ intermediate.text.toList := by
      rw [Step.metaObject] at hintermediate
      split at hintermediate
      -- the placeholder of a translation unit
      · obtain rfl := Option.some.inj hintermediate
        refine Path.not_mem_join (by decide) hplaceholder ?_
        rw [String.toList_append, List.mem_append]
        exact fun hc => hc.elim (Path.not_mem_fileStem hsource) (by decide)
      · cases hintermediate
    exact { hmeta target placeholderFolder with keyInput := hinput }
  | resource target => exact hbase .resourceCompile target _
  | form target => exact hbase .uiCompile target _
  | schema target => exact hbase .schemaCompile target _

theorem attach_of_unresolved (h : step.resolved = none) (bundle : Bundle) :
    step.attach bundle =
      { step with forceIncludes := step.forceIncludesWith bundle, resolved := some bundle } := by
  rw [attach, h]
  rfl

theorem Unquoted.attach (h : step.Unquoted) (hresolved : step.resolved = none) {bundle : Bundle}
    (hbundle : bundle.Unquoted) : (step.attach bundle).Unquoted := by
  rw [attach_of_unresolved hresolved]
  refine { h with forceIncludes := fun p hp => ?_, bundle := fun b hb => ?_ }
  · replace hp : p ∈ step.forceIncludesWith bundle := hp
    rw [forceIncludesWith] at hp
    split at hp
    · next header hheader =>
      split at hp
      · rw [Path.insertLast] at hp
        split at hp
        · exact h.forceIncludes p hp
        · rcases List.mem_append.1 hp with hp | hp
          · exact h.forceIncludes p hp
          · exact List.mem_singleton.1 hp ▸ hbundle.forcedInclude header hheader
      · exact h.forceIncludes p hp
    · exact h.forceIncludes p hp
  · obtain rfl := Option.some.inj hb
    exact hbundle

end Made

/-! ## 3. The line as words -/

def NamesNothing (text : String) : Prop :=
  ¬ "[input]".toList <:+: text.toList ∧ ¬ "[output]".toList <:+: text.toList

def fillIn (step : Step) (base : Option Path) (text : String) : String :=
  Text.replace "[output]" (step.output.relativeTo base).quoted
    (Text.replace "[input]" (step.keyInput.relativeTo base).quoted text)

section FillIn

variable {step : Step} {base : Option Path}

theorem fillIn_join (texts : List String) :
    step.fillIn base (Text.join " " texts) = Text.join " " (texts.map (step.fillIn base)) := by
  rw [fillIn, Text.replace_join (by decide) (by decide), Text.replace_join (by decide) (by decide),
    List.map_map]
  rfl

theorem fillIn_of_namesNothing {text : String} (h : NamesNothing text) :
    step.fillIn base text = text := by
  rw [fillIn, Text.replace_of_absent (by decide) h.1, Text.replace_of_absent (by decide) h.2]

theorem fillIn_output : step.fillIn base "[output]" = (step.output.relativeTo base).quoted := by
  have hfirst (input : String) : Text.replace "[input]" input "[output]" = "[output]" :=
    Text.replace_of_absent (by decide) (by decide)
  rw [fillIn, hfirst, Text.replace_self (by decide)]

theorem fillIn_input (h : ¬ "[output]".toList <:+: (step.keyInput.relativeTo base).text.toList) :
    step.fillIn base "[input]" = (step.keyInput.relativeTo base).quoted := by
  have hquoted := Path.not_infix_quoted (by decide) h
  rw [fillIn, Text.replace_self (by decide), Text.replace_of_absent (by decide) hquoted]

theorem commandLine_eq {texts : List String} (hne : texts ≠ [])
    (h : step.arguments base = Text.join " " texts) :
    step.commandLine base =
      Text.join " " (step.executable.quoted :: texts.map (step.fillIn base)) := by
  obtain ⟨text, rest, rfl⟩ := List.exists_cons_of_ne_nil hne
  show step.executable.quoted ++ " " ++ step.fillIn base (step.arguments base) = _
  rw [h, fillIn_join]
  rfl

/-- The line of a step that calls its program on the input and the output. -/
theorem tokens_commandLine_of_arguments {front : List String}
    (harguments : step.arguments base = Text.join " " (front ++ ["[input]", "-o", "[output]"]))
    (hunquoted : step.Unquoted) (hnames : ∀ text ∈ front, NamesNothing text)
    (hclosed : ∀ text ∈ front, Text.Closed text)
    (hinput : ¬ "[output]".toList <:+: (step.keyInput.relativeTo base).text.toList) :
    Text.tokens (step.commandLine base) = step.executable.text :: (front.flatMap Text.tokens ++
      [(step.keyInput.relativeTo base).text, "-o", (step.output.relativeTo base).text]) := by
  have hkey := Path.not_mem_relativeTo (by decide) (by decide) hunquoted.keyInput base
  have hout := Path.not_mem_relativeTo (by decide) (by decide) hunquoted.output base
  have hfront : front.map (step.fillIn base) = front :=
    (List.map_congr_left fun text htext => fillIn_of_namesNothing (hnames text htext)).trans
      (List.map_id' front)
  have hdash : step.fillIn base "-o" = "-o" := fillIn_of_namesNothing ⟨by decide, by decide⟩
  rw [commandLine_eq (by simp) harguments, List.map_append, hfront, List.map_cons, List.map_cons,
    List.map_cons, List.map_nil, fillIn_input hinput, hdash, fillIn_output, Text.tokens_join]
  · rw [List.flatMap_cons, List.flatMap_append, List.flatMap_cons, List.flatMap_cons,
      List.flatMap_cons, Text.tokens_quoted hunquoted.executable, Text.tokens_quoted hkey,
      Text.tokens_quoted hout]
    rfl
  · exact List.cons_ne_nil _ _
  · intro text htext
    rcases List.mem_cons.1 htext with rfl | htext
    · exact Text.closed_quoted hunquoted.executable
    · rcases List.mem_append.1 htext with htext | htext
      · exact hclosed text htext
      · simp only [List.mem_cons, List.not_mem_nil, or_false] at htext
        rcases htext with rfl | rfl | rfl
        · exact Text.closed_quoted hkey
        · exact Text.closed_of_not_mem (by decide)
        · exact Text.closed_quoted hout

/-- The options of a meta-object step are read back one by one. -/
theorem tokens_options (hunquoted : step.Unquoted) :
    (step.options base).flatMap Text.tokens = step.meantOptions base := by
  have hpaths {option : String} (hquote : '"' ∉ option.toList) (hblank : ' ' ∉ option.toList)
      {paths : List Path} (h : ∀ p ∈ paths, '"' ∉ p.text.toList) :
      (paths.map fun p => option ++ (p.relativeTo base).quoted).flatMap Text.tokens =
        paths.map fun p => option ++ (p.relativeTo base).text := by
    induction paths with
    | nil => rfl
    | cons p paths ih =>
      obtain ⟨hp, hrest⟩ := List.forall_mem_cons.1 h
      have hpath := Path.not_mem_relativeTo (by decide) (by decide) hp base
      rw [List.map_cons, List.flatMap_cons, Text.tokens_append_quoted hquote hblank hpath, ih hrest]
      rfl
  rw [options, meantOptions, List.flatMap_append,
    hpaths (by decide) (by decide) hunquoted.forceIncludes]
  congr 1
  cases hresolved : step.resolved with
  | none => rfl
  | some bundle =>
    have hbundle := hunquoted.bundle bundle hresolved
    simp only [Bundle.quotedIncludePaths, List.map_map, List.flatMap_append]
    congr 1
    · split
      · rfl
      · rw [List.flatMap_singleton, Text.tokens_of_not_mem hbundle.defines]
    · exact hpaths (by decide) (by decide) hbundle.includePaths

theorem closed_options (hunquoted : step.Unquoted) {option : String}
    (h : option ∈ step.options base) : Text.Closed option := by
  have hpath {name : String} (hname : '"' ∉ name.toList) {p : Path} (hp : '"' ∉ p.text.toList) :
      Text.Closed (name ++ (p.relativeTo base).quoted) :=
    (Text.closed_of_not_mem hname).append
      (Text.closed_quoted (Path.not_mem_relativeTo (by decide) (by decide) hp base))
  rw [options] at h
  rcases List.mem_append.1 h with h | h
  · cases hresolved : step.resolved with
    | none =>
      rw [hresolved] at h
      cases h
    | some bundle =>
      have hbundle := hunquoted.bundle bundle hresolved
      simp only [hresolved, Bundle.quotedIncludePaths, List.map_map] at h
      rcases List.mem_append.1 h with h | h
      · split at h
        · cases h
        · obtain rfl := List.mem_singleton.1 h
          exact Text.closed_of_not_mem hbundle.defines
      · obtain ⟨p, hp, rfl⟩ := List.mem_map.1 h
        exact hpath (by decide) (hbundle.includePaths p hp)
  · obtain ⟨p, hp, rfl⟩ := List.mem_map.1 h
    exact hpath (by decide) (hunquoted.forceIncludes p hp)

end FillIn

/-! ## 4. The line as tokens -/

/-- The names `[input]` and `[output]` stand in the arguments only where the template means the two
paths. -/
structure Literal (step : Step) (base : Option Path) : Prop where
  options : step.kind = .metaObjectCompile → ∀ option ∈ step.options base, NamesNothing option
  input : step.kind ≠ .schemaCompile →
    ¬ "[output]".toList <:+: (step.keyInput.relativeTo base).text.toList
  template : step.kind = .schemaCompile → NamesNothing step.argumentsTemplate

section Finalized

variable {executable outputFolder source : Path} {step : Step} {base : Option Path}

theorem tokens_commandLine_of_files (hkind : step.kind ≠ .schemaCompile)
    (htemplate : step.argumentsTemplate =
      Text.join " " (templateWords source outputFolder step.kind))
    (hunquoted : step.Unquoted) (hliteral : step.Literal base) :
    Text.tokens (step.commandLine base) =
      step.executable.text :: step.meantArguments outputFolder base := by
  have hinput := hliteral.input hkind
  rw [meantArguments]
  cases hstep : step.kind with
  | metaObjectCompile =>
    have harguments : step.arguments base =
        Text.join " " (step.options base ++ ["[input]", "-o", "[output]"]) := by
      rw [arguments, if_pos hstep, htemplate, hstep]
      exact Text.join_append_join " " _ (List.cons_ne_nil _ _)
    rw [tokens_commandLine_of_arguments harguments hunquoted (hliteral.options hstep)
      (fun _ => closed_options hunquoted) hinput, tokens_options hunquoted]
  | resourceCompile =>
    have harguments : step.arguments base =
        Text.join " " (["-binary"] ++ ["[input]", "-o", "[output]"]) := by
      rw [arguments, if_neg (by rw [hstep]; decide), htemplate, hstep]
      rfl
    rw [tokens_commandLine_of_arguments harguments hunquoted _ _ hinput]
    · rfl
    · exact fun text htext => List.mem_singleton.1 htext ▸ ⟨by decide, by decide⟩
    · exact fun text htext => List.mem_singleton.1 htext ▸ Text.closed_of_not_mem (by decide)
  | uiCompile =>
    have harguments : step.arguments base =
        Text.join " " ([] ++ ["[input]", "-o", "[output]"]) := by
      rw [arguments, if_neg (by rw [hstep]; decide), htemplate, hstep]
      rfl
    rw [tokens_commandLine_of_arguments harguments hunquoted (fun _ h => absurd h List.not_mem_nil)
      (fun _ h => absurd h List.not_mem_nil) hinput]
    rfl
  | schemaCompile => exact absurd hstep hkind

/-- The paths of a schema step come apart at their blanks. -/
theorem tokens_commandLine_of_schema (hkind : step.kind = .schemaCompile)
    (htemplate : step.argumentsTemplate =
      Text.join " " (templateWords source outputFolder step.kind))
    (hunquoted : step.Unquoted) (hliteral : step.Literal base)
    (hwords : ∀ word ∈ templateWords source outputFolder step.kind, '"' ∉ word.toList) :
    Text.tokens (step.commandLine base) =
      step.executable.text :: (templateWords source outputFolder step.kind).flatMap
        (Text.split ' ') := by
  have hne : templateWords source outputFolder step.kind ≠ [] := by
    rw [hkind]
    exact List.cons_ne_nil _ _
  have harguments : step.arguments base = Text.join " " [step.argumentsTemplate] := by
    rw [arguments, if_neg (by rw [hkind]; decide)]
    rfl
  have hline : step.commandLine base = Text.join " "
      (step.executable.quoted :: templateWords source outputFolder step.kind) := by
    rw [commandLine_eq (List.cons_ne_nil _ _) harguments, List.map_singleton,
      fillIn_of_namesNothing (hliteral.template hkind), htemplate]
    exact Text.join_append_join " " [step.executable.quoted] hne
  rw [hline, Text.tokens_join (List.cons_ne_nil _ _), List.flatMap_cons,
    Text.tokens_quoted hunquoted.executable,
    List.flatMap_congr fun word hword => Text.tokens_of_not_mem (hwords word hword)]
  · rfl
  · intro text htext
    rcases List.mem_cons.1 htext with rfl | hword
    · exact Text.closed_quoted hunquoted.executable
    · exact Text.closed_of_not_mem (hwords text hword)

/-- Texts come out of splitting as they are just when none of them has a blank. -/
theorem flatMap_split_eq_self_iff {texts : List String} :
    texts.flatMap (Text.split ' ') = texts ↔ ∀ text ∈ texts, ' ' ∉ text.toList := by
  constructor
  -- whatever comes out of splitting has no blank
  · intro h text htext
    rw [← h] at htext
    obtain ⟨_, -, hpiece⟩ := List.mem_flatMap.1 htext
    obtain ⟨chars, hchars, rfl⟩ := List.mem_map.1 hpiece
    rw [String.toList_ofList]
    exact Text.not_mem_of_mem_splitChars hchars
  · intro h
    have hsingle : ∀ text ∈ texts, Text.split ' ' text = [text] := fun text htext => by
      rw [Text.split, Text.splitChars_of_not_mem (h text htext), List.map_singleton,
        String.ofList_toList]
    rw [List.flatMap_congr hsingle, List.flatMap_singleton']

/-- **Command lines are read back as they are meant**, but for schema steps on paths with blanks. For
a step that a constructor makes from paths without quotes, finalized with a bundle without quotes,
the tokens of the line are the executable and the arguments that are meant, each path in one token,
unless it is a schema step and one of its three arguments has a blank. The names `[input]` and
`[output]` have to stand for the two paths only. -/
theorem tokens_commandLine_iff (made : MadeFrom executable outputFolder source step)
    (hexecutable : '"' ∉ executable.text.toList) (hfolder : '"' ∉ outputFolder.text.toList)
    (hsource : '"' ∉ source.text.toList) {bundle : Bundle} (hbundle : bundle.Unquoted)
    (hliteral : (step.attach bundle).Literal base) :
    Text.tokens ((step.attach bundle).commandLine base) =
        executable.text :: (step.attach bundle).meantArguments outputFolder base ↔
      (step.kind = .schemaCompile →
        ∀ argument ∈ (step.attach bundle).meantArguments outputFolder base,
          ' ' ∉ argument.toList) := by
  obtain ⟨hexecutable', hsource', hresolved, htemplate⟩ := made.frame
  have hunquoted := (made.unquoted hexecutable hfolder hsource).attach hresolved hbundle
  have hattach := attach_of_unresolved hresolved bundle
  have hkind : (step.attach bundle).kind = step.kind := by rw [hattach]
  have hshown : (step.attach bundle).executable = executable := by rw [hattach, hexecutable']
  replace htemplate : (step.attach bundle).argumentsTemplate =
      Text.join " " (templateWords source outputFolder (step.attach bundle).kind) := by
    rw [hkind, ← htemplate, hattach]
  by_cases hschema : step.kind = .schemaCompile
  · have hmeant : (step.attach bundle).meantArguments outputFolder base =
        templateWords source outputFolder step.kind := by
      rw [meantArguments, hkind, hschema, hattach]
      show ["--proto_path=" ++ (step.sourceFile.parent?.map Path.forwardSlashes).getD "",
        step.sourceFile.fileName, _] = _
      rw [hsource']
      rfl
    rw [tokens_commandLine_of_schema (hkind.trans hschema) htemplate hunquoted hliteral
      (fun _ => not_mem_templateWords hsource hfolder), hshown, hmeant, hkind, List.cons_inj_right, flatMap_split_eq_self_iff]
    exact ⟨fun h _ => h, fun h => h hschema⟩
  · have hkind' : (step.attach bundle).kind ≠ .schemaCompile := fun h => hschema (hkind ▸ h)
    rw [tokens_commandLine_of_files hkind' htemplate hunquoted hliteral, hshown]
    exact ⟨fun _ h => absurd h hschema, fun _ => rfl⟩

end Finalized

def spacedBundle : Bundle where
  defines := "-DAPP -DGUI"
  includePaths := [⟨"/my repo/inc"⟩]
  forcedInclude := some ⟨"my pch.h"⟩

def spacedHeader : Step :=
  Step.metaObject ⟨.win64, .vs2022, .debug⟩ ⟨"/my qt/moc"⟩ ⟨"/my repo/moc"⟩ ⟨"/my repo/moc"⟩
    ⟨"/my repo/src/my dialog.h"⟩

theorem tokens_commandLine_iff_spaced :
    spacedBundle.Unquoted ∧ (spacedHeader.attach spacedBundle).Literal (some ⟨"/my repo/src"⟩) ∧
      Text.tokens ((spacedHeader.attach spacedBundle).commandLine (some ⟨"/my repo/src"⟩)) =
        ["/my qt/moc", "-DAPP", "-DGUI", "-I../inc", "-fmy dialog.h", "-fmy pch.h",
          "my dialog.h", "-o", "../moc/moc_my dialog.cpp"] := by
  have hbundle : spacedBundle.Unquoted :=
    { defines := by decide
      includePaths := by decide
      forcedInclude := by simp [spacedBundle] }
  have hliteral : (spacedHeader.attach spacedBundle).Literal (some ⟨"/my repo/src"⟩) :=
    { options := fun _ => by unfold NamesNothing; decide +kernel
      input := fun _ => by decide +kernel
      template := fun h => absurd h (by decide +kernel) }
  have hkind : spacedHeader.kind ≠ .schemaCompile := by decide +kernel
  have htokens := (tokens_commandLine_iff (.metaObject _ _) (by decide) (by decide) (by decide)
    hbundle hliteral).2 fun h => absurd h hkind
  refine ⟨hbundle, hliteral, htokens.trans ?_⟩
  decide +kernel

def spacedSchema : Step :=
  Step.schema ⟨.win64, .vs2022, .debug⟩ ⟨"/bin/protoc"⟩ ⟨"/repo/my gen"⟩
    ⟨"/repo/my protos/message.proto"⟩

def misnamedForm : Step :=
  Step.form ⟨.win64, .vs2022, .debug⟩ ⟨"/qt/uic"⟩ ⟨"/repo/gen"⟩ ⟨"/repo/[output]/dialog.ui"⟩

theorem tokens_commandLine_ne_meant :
    Text.tokens ((spacedSchema.attach spacedBundle).commandLine none) ≠
        "/bin/protoc" :: (spacedSchema.attach spacedBundle).meantArguments ⟨"/repo/my gen"⟩ none ∧
      Text.tokens ((misnamedForm.attach spacedBundle).commandLine none) ≠
        "/qt/uic" :: (misnamedForm.attach spacedBundle).meantArguments ⟨"/repo/gen"⟩ none := by
  decide +kernel

end Step

end BuildSteps
