import BuildSteps.Proofs.Text.Substitution
import BuildSteps.Setup

/-!
# The names in path templates

The names in a template are replaced one after the other, which is not always the same as replacing
them at once: a value can hold a name that is replaced later, or make one with the text around it.
-/

namespace BuildSteps.PathTemplate

open Text

/-- The template with all names replaced at once, so that no value is looked at. -/
def expandAtOnce (values : Values) (template : String) : String :=
  replaceAll values.replacements template

/-! ## 1. Names -/

def table (replacements : List (String × String)) : List (List Char × List Char) :=
  replacements.map fun r => (r.1.toList, r.2.toList)

def ownReplacements (values : Values) : List (String × String) :=
  [("[project.name]", values.projectName), ("[project.path]", values.projectPath.text)]

def targetReplacements (target : Target) : List (String × String) :=
  [("[target.name]", target.name), ("[target.platform]", target.platform.name),
    ("[target.dev_env]", target.devEnv.name)]

def targetNames : List (List Char) :=
  ["[target.name]".toList, "[target.platform]".toList, "[target.dev_env]".toList]

def ownNames : List (List Char) := ["[project.name]".toList, "[project.path]".toList]

def names : List (List Char) := ownNames ++ targetNames

theorem isBracketed_of_mem_names {name : List Char} (h : name ∈ names) : IsBracketed name := by
  have hinner : ∀ inner ∈ ["project.name", "project.path", "target.name", "target.platform",
      "target.dev_env"].map String.toList, '[' ∉ inner ∧ ']' ∉ inner := by decide
  have hnames : names = (["project.name", "project.path", "target.name", "target.platform",
      "target.dev_env"].map String.toList).map fun inner => '[' :: (inner ++ [']']) := by
    decide
  rw [hnames, List.mem_map] at h
  obtain ⟨inner, hmem, rfl⟩ := h
  exact ⟨inner, rfl, hinner inner hmem⟩

theorem nodup_names : names.Nodup := by decide

/-- What holds of the names of all levels, platforms and environments holds of the values of a
target. -/
theorem forall_mem_targetReplacements {P : String → Prop}
    (levels : ∀ o ∈ Optimization.all, P o.name) (platforms : ∀ p ∈ Platform.all, P p.name)
    (devEnvs : ∀ d ∈ DevEnv.all, P d.name) (target : Target) :
    ∀ r ∈ targetReplacements target, P r.2 := by
  rw [targetReplacements, List.forall_mem_cons, List.forall_mem_cons, List.forall_mem_singleton]
  exact ⟨levels _ (Optimization.mem_all _), platforms _ (Platform.mem_all _),
    devEnvs _ (DevEnv.mem_all _)⟩

/-- The values of a target bring in no part of a name of one. -/
theorem inert_of_mem_targetReplacements {target : Target} {r : String × String}
    (hr : r ∈ targetReplacements target) : ∀ name ∈ targetNames, Inert name r.2.toList :=
  forall_mem_targetReplacements (P := fun value => ∀ name ∈ targetNames, Inert name value.toList)
    (by decide) (by decide) (by decide) target r hr

theorem plain_of_mem_targetReplacements {target : Target} {r : String × String}
    (hr : r ∈ targetReplacements target) : '[' ∉ r.2.toList ∧ ']' ∉ r.2.toList :=
  forall_mem_targetReplacements (P := fun value => '[' ∉ value.toList ∧ ']' ∉ value.toList)
    (by decide) (by decide) (by decide) target r hr

theorem replacements_eq (values : Values) : values.replacements =
    ownReplacements values ++ values.target.elim [] targetReplacements := by
  rw [Values.replacements]
  cases values.target <;> rfl

theorem table_eq (values : Values) : table values.replacements =
    table (ownReplacements values) ++ table (values.target.elim [] targetReplacements) := by
  rw [replacements_eq, table, List.map_append, ← table, ← table]

theorem table_ownReplacements (values : Values) : table (ownReplacements values) =
    [("[project.name]".toList, values.projectName.toList),
      ("[project.path]".toList, values.projectPath.text.toList)] := by
  rw [table, ownReplacements, List.map_cons, List.map_cons, List.map_nil]

theorem map_fst_ownReplacements (values : Values) :
    (table (ownReplacements values)).map Prod.fst = ownNames := by
  rw [table_ownReplacements, List.map_cons, List.map_cons, List.map_nil, ownNames]

theorem map_fst_targetReplacements (target : Target) :
    (table (targetReplacements target)).map Prod.fst = targetNames := by
  simp only [table, targetReplacements, targetNames, List.map_cons, List.map_nil]

theorem isTable (values : Values) : IsTable (table values.replacements) := by
  have hnames : ((table values.replacements).map Prod.fst).Sublist names := by
    rw [table_eq, List.map_append, map_fst_ownReplacements, names]
    refine .append_left ?_ ownNames
    cases values.target with
    | none => exact List.nil_sublist _
    | some target => exact (map_fst_targetReplacements target).symm ▸ .refl _
  refine ⟨fun r hr => ?_, nodup_names.sublist hnames⟩
  exact isBracketed_of_mem_names (hnames.subset (List.mem_map_of_mem hr))

/-! ## 2. One name after the other -/

theorem expand_eq (values : Values) (template : String) :
    expand values template =
      String.ofList (replaceEach (table values.replacements) template.toList) := by
  refine foldl_replace (fun r hr hnil => ?_) template
  have hmem : (r.1.toList, r.2.toList) ∈ table values.replacements := List.mem_map_of_mem hr
  exact ((isTable values).bracketed _ hmem).ne_nil (String.toList_eq_nil_iff.2 hnil)

theorem expand_eq_expandAtOnce_iff {values : Values} {template : String} :
    expand values template = expandAtOnce values template ↔
      replaceEach (table values.replacements) template.toList =
        replaceAllFrom (table values.replacements) 0 template.toList := by
  rw [expand_eq]
  exact String.ofList_inj

variable {values : Values}

/-- Where no template tells the two apart, the values of the project and its folder bring in no part
of a name of the target. The template that would tell has the name of the value between two texts
that complete the name of the target; that one is gone after its replacement. -/
theorem inert_of_forall_eq (h : ∀ template, expand values template = expandAtOnce values template)
    {target : Target} (htarget : values.target = some target) {r : String × String}
    (hr : r ∈ ownReplacements values) {name : List Char} (hname : name ∈ targetNames) :
    Inert name r.2.toList := by
  by_contra hnot
  have hbracketed := isBracketed_of_mem_names (List.mem_append_right ownNames hname)
  obtain ⟨front, rest, hfront, hrest, hoccurs⟩ := hbracketed.exists_around hnot
  have hmem : (r.1.toList, r.2.toList) ∈ table values.replacements := by
    rw [replacements_eq]
    exact List.mem_map_of_mem (List.mem_append_left _ hr)
  have heq := expand_eq_expandAtOnce_iff.1 (h (String.ofList (front ++ (r.1.toList ++ rest))))
  rw [String.toList_ofList, (isTable values).replaceAllFrom_around hmem hfront hrest,
    table_eq, htarget, replaceEach_append] at heq
  rw [← heq] at hoccurs
  refine not_infix_replaceEach hbracketed.ne_nil ?_ ?_ (.inr ?_) hoccurs
  · intro r hr
    have hmem : r.1 ∈ targetNames := map_fst_targetReplacements target ▸ List.mem_map_of_mem hr
    exact (isBracketed_of_mem_names (List.mem_append_right ownNames hmem)).ne_nil
  · rintro _ hr
    obtain ⟨given, hgiven, rfl⟩ := List.mem_map.1 hr
    exact inert_of_mem_targetReplacements hgiven name hname
  · exact (map_fst_targetReplacements target).symm ▸ hname

/-- No name of the target is left then where the values of the project and its folder are put in. -/
theorem forall_not_infix_of_forall_eq
    (h : ∀ template, expand values template = expandAtOnce values template)
    {front rest : List Char} (hfront : ']' ∉ front) (hrest : '[' ∉ rest) :
    ∀ r ∈ table (values.target.elim [] targetReplacements),
      ¬ r.1 <:+: replaceFrom "[project.path]".toList values.projectPath.text.toList 0
        (front ++ (values.projectName.toList ++ rest)) := by
  cases htarget : values.target with
  | none => exact fun _ hr => absurd hr List.not_mem_nil
  | some target =>
    intro r hr
    have hname : r.1 ∈ targetNames := map_fst_targetReplacements target ▸ List.mem_map_of_mem hr
    have hbracketed := isBracketed_of_mem_names (List.mem_append_right ownNames hname)
    have hproject : Inert r.1 values.projectName.toList :=
      inert_of_forall_eq h htarget List.mem_cons_self hname
    have hpath : Inert r.1 values.projectPath.text.toList :=
      inert_of_forall_eq h htarget (List.mem_cons_of_mem _ List.mem_cons_self) hname
    have hne : "[project.path]".toList ≠ [] := by decide
    exact not_infix_replaceFrom hbracketed.ne_nil hne hpath
      (.inl (hbracketed.not_infix_around hproject hfront hrest))

/-- The same of the value of the project and the name of its folder, which may stand for itself. The
template that would tell is changed where the folder is put in, and not afterwards. -/
theorem inert_path_of_forall_eq
    (h : ∀ template, expand values template = expandAtOnce values template) :
    values.projectPath.text = "[project.path]" ∨
      Inert "[project.path]".toList values.projectName.toList := by
  by_contra! hnot
  have hpath : IsBracketed "[project.path]".toList := isBracketed_of_mem_names (by decide)
  have hproject : IsBracketed "[project.name]".toList :=
    isBracketed_of_mem_names (by decide)
  obtain ⟨front, rest, hfront, hrest, hoccurs⟩ := hpath.exists_around hnot.2
  have hmem : ("[project.name]".toList, values.projectName.toList) ∈ table values.replacements := by
    rw [table_eq, table_ownReplacements]
    exact List.mem_cons_self
  have heq := expand_eq_expandAtOnce_iff.1
    (h (String.ofList (front ++ ("[project.name]".toList ++ rest))))
  rw [String.toList_ofList, (isTable values).replaceAllFrom_around hmem hfront hrest,
    table_eq, replaceEach_append, table_ownReplacements] at heq
  change replaceEach _ (replaceFrom _ _ 0 (replaceFrom _ _ 0 _)) = _ at heq
  rw [replaceFrom_around hproject hfront hrest] at heq
  have hlater := forall_not_infix_of_forall_eq h hfront hrest
  rw [replaceEach_of_forall_absent hlater] at heq
  rcases (replaceFrom_eq_self_iff hpath.ne_nil).1 heq with habsent | hsame
  · exact habsent hoccurs
  · exact hnot.1 (String.toList_inj.1 hsame)

/-- **Templates are expanded as if all names were replaced at once** just when no value brings in a
part of a name that is replaced later by something else. Whatever brings in no brackets does no harm
in a template where no bracket is opened inside another one. -/
theorem expand_exact (values : Values) :
    ((∀ template, expand values template = expandAtOnce values template) ↔
      values.replacements.Pairwise fun r later =>
        later.2 = later.1 ∨ Inert later.1.toList r.2.toList) ∧
    ((∀ r ∈ ownReplacements values, '[' ∉ r.2.toList ∧ ']' ∉ r.2.toList) →
      ∀ template, IsFlat template.toList →
        expand values template = expandAtOnce values template) := by
  refine ⟨⟨fun h => ?_, fun h template => ?_⟩, fun h template hflat => ?_⟩
  · rw [replacements_eq]
    cases htarget : values.target with
    | none => exact List.pairwise_pair.2 (inert_path_of_forall_eq h)
    | some target =>
      have hnames {later : String × String} (hlater : later ∈ targetReplacements target) :
          later.1.toList ∈ targetNames := by
        rw [← map_fst_targetReplacements target, table, List.map_map]
        exact List.mem_map_of_mem (f := Prod.fst ∘ _) hlater
      refine List.pairwise_append.2 ⟨List.pairwise_pair.2 (inert_path_of_forall_eq h), ?_, ?_⟩
      · exact List.pairwise_of_forall_mem_list fun r hr later hlater =>
          .inr (inert_of_mem_targetReplacements hr _ (hnames hlater))
      · exact fun r hr later hlater => .inr (inert_of_forall_eq h htarget hr (hnames hlater))
  · rw [expand_eq_expandAtOnce_iff]
    refine (isTable values).replaceEach_eq (List.pairwise_map.2 (h.imp fun hr => ?_)) _
    exact hr.imp_left fun hsame => congrArg String.toList hsame
  · rw [expand_eq_expandAtOnce_iff]
    refine replaceEach_eq_of_isFlat (isTable values).bracketed (fun r hr => ?_) hflat
    obtain ⟨given, hgiven, rfl⟩ := List.mem_map.1 hr
    rw [replacements_eq, List.mem_append] at hgiven
    rcases hgiven with hown | hgiven
    · exact h given hown
    · cases htarget : values.target with
      | none => exact absurd (htarget ▸ hgiven) List.not_mem_nil
      | some target => exact plain_of_mem_targetReplacements (htarget ▸ hgiven)

def plainEditor : Values where
  projectName := "editor"
  projectPath := ⟨"/repo/editor"⟩
  target := some ⟨.win64, .vs2022, .debug⟩

theorem expand_exact_plain :
    IsFlat "[project.path]/[target.name]/[other]".toList ∧
      expand plainEditor "[project.path]/[target.name]/[other]" =
        expandAtOnce plainEditor "[project.path]/[target.name]/[other]" :=
  ⟨by decide, (expand_exact plainEditor).2 (by decide) _ (by decide)⟩

def nestedFolder : Values where
  projectName := "editor"
  projectPath := ⟨"/repo/[target.name]/editor"⟩
  target := some ⟨.win64, .vs2022, .debug⟩

def completingName : Values where
  projectName := "path"
  projectPath := ⟨"/repo"⟩
  target := none

/-- The path of a project is looked through for names, and so is what stands around its name. -/
theorem values_are_expanded :
    expand nestedFolder "[project.path]/ide" = "/repo/Debug/editor/ide" ∧
      expandAtOnce nestedFolder "[project.path]/ide" = "/repo/[target.name]/editor/ide" ∧
      expand completingName "[project.[project.name]]" = "/repo" ∧
      expandAtOnce completingName "[project.[project.name]]" = "[project.path]" := by
  decide

end BuildSteps.PathTemplate
