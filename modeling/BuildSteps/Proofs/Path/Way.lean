import BuildSteps.Proofs.Path.Components

/-!
# Ways between folders

The way from a folder to a path goes up out of what they do not share and then down along names.
Followed from the folder it ends at the path, and it is empty only when the two are the same.
-/

namespace BuildSteps.Path

/-! ## 1. Going up and down -/

theorem resolveNames_append (components more : List Component) :
    resolveNames (components ++ more) = more.foldl (fun names c =>
      match c with
      | .name text => names ++ [text]
      | .parent => names.dropLast
      | .root | .current => names) (resolveNames components) :=
  List.foldl_append

theorem resolveNames_append_names (components : List Component) (names : List String) :
    resolveNames (components ++ names.map .name) = resolveNames components ++ names := by
  induction names using List.reverseRecOn with
  | nil => rw [List.map_nil, List.append_nil, List.append_nil]
  | append_singleton names name ih =>
    rw [List.map_append, ← List.append_assoc, resolveNames_append, ih, ← List.append_assoc]
    rfl

/-- As many `..` as there are names at the end take these back. -/
theorem resolveNames_append_parents (components : List Component) (names : List String) :
    resolveNames (components ++ names.map .name ++ List.replicate names.length .parent) =
      resolveNames components := by
  induction names using List.reverseRecOn with
  | nil => rw [List.map_nil, List.append_nil, List.length_nil, List.replicate_zero, List.append_nil]
  | append_singleton names name ih =>
    have hlast : resolveNames (components ++ (names ++ [name]).map .name ++ [.parent]) =
        resolveNames (components ++ names.map .name) := by
      rw [resolveNames_append, resolveNames_append_names, resolveNames_append_names]
      show (resolveNames components ++ (names ++ [name])).dropLast = _
      rw [← List.append_assoc, List.dropLast_concat]
    rw [List.length_append, List.length_singleton, Nat.add_comm, List.replicate_add,
      ← List.append_assoc, resolveNames_append, List.replicate_one, hlast, ← resolveNames_append, ih]

/-- The way between two lists of names leads up out of what follows the names they share, and then
down. -/
theorem wayFrom?_names (names base : List String) :
    ∃ shared up down, base = shared ++ up ∧ names = shared ++ down ∧
      (up.head? = down.head? → up = []) ∧
      wayFrom? true (names.map .name) (base.map .name) =
        some (List.replicate up.length .parent ++ down.map .name) := by
  induction base generalizing names with
  | nil => exact ⟨[], [], names, rfl, rfl, fun _ => rfl, rfl⟩
  | cons b base ih =>
    have hup (rest : List String) : wayFrom? false [] (rest.map .name) =
        some (List.replicate rest.length .parent) := by
      induction rest with
      | nil => rfl
      | cons name rest ih => rw [List.map_cons, wayFrom?, ih]; rfl
    cases names with
    | nil =>
      refine ⟨[], b :: base, [], rfl, rfl, fun h => (by cases h), ?_⟩
      rw [List.map_nil, List.map_cons, wayFrom?, hup, List.append_nil]
      rfl
    | cons name names =>
      rw [List.map_cons, List.map_cons, wayFrom?]
      by_cases hsame : name = b
      · subst hsame
        obtain ⟨shared, up, down, hbase, hnames, hfork, hway⟩ := ih names
        refine ⟨name :: shared, up, down, by rw [hbase]; rfl, by rw [hnames]; rfl, hfork, ?_⟩
        rw [if_pos ⟨rfl, rfl⟩, hway]
      · refine ⟨[], b :: base, name :: names, rfl, rfl, fun h => ?_, ?_⟩
        · exact absurd (Option.some.inj h).symm hsame
        · rw [if_neg (fun h => hsame (Component.name.inj h.2)), if_neg Component.noConfusion,
            if_neg Component.noConfusion, List.map_map, List.length_cons, List.replicate_succ,
            List.map_cons, ← List.map_const]
          rfl

/-! ## 2. Straight paths -/

def IsStraight (p : Path) : Prop := p.isAbsolute = true ∧ .parent ∉ p.components

instance (p : Path) : Decidable p.IsStraight := inferInstanceAs (Decidable (_ ∧ _))

theorem exists_names_of_isInner {inner : List Component} (h : ∀ c ∈ inner, c.IsInner)
    (hparent : .parent ∉ inner) :
    ∃ names : List String, (∀ name ∈ names, IsName name) ∧ inner = names.map .name := by
  induction inner with
  | nil => exact ⟨[], fun _ hmem => absurd hmem List.not_mem_nil, rfl⟩
  | cons c inner ih =>
    obtain ⟨hfirst, hrest⟩ := not_or.1 (mt List.mem_cons.2 hparent)
    obtain ⟨names, hnames, rfl⟩ := ih (fun d hd => h d (List.mem_cons_of_mem c hd)) hrest
    cases h c List.mem_cons_self with
    | parent => exact absurd rfl hfirst
    | name hname => exact ⟨_ :: names, List.forall_mem_cons.2 ⟨hname, hnames⟩, rfl⟩

theorem IsStraight.exists_names {p : Path} (h : p.IsStraight) :
    ∃ names : List String, (∀ name ∈ names, IsName name) ∧
      p.components = .root :: names.map .name := by
  obtain ⟨inner, hinner, hcomponents⟩ := exists_components_of_isAbsolute h.1
  obtain ⟨names, hnames, rfl⟩ := exists_names_of_isInner hinner fun hmem =>
    h.2 (hcomponents ▸ List.mem_cons_of_mem _ hmem)
  exact ⟨names, hnames, hcomponents⟩

section

variable {p base : Path}

/-- The way from a straight folder to a straight path: up as far as they differ, and then down. -/
theorem exists_relativeTo (hp : p.IsStraight) (hbase : base.IsStraight) :
    ∃ shared up down : List String, (∀ name ∈ shared ++ down, IsName name) ∧
      base.components = .root :: (shared ++ up).map .name ∧
      p.components = .root :: (shared ++ down).map .name ∧
      (up.head? = down.head? → up = []) ∧
      p.relativeTo (some base) =
        ofComponents (List.replicate up.length .parent ++ down.map .name) := by
  obtain ⟨names, hnames, hcomponents⟩ := hp.exists_names
  obtain ⟨others, -, hothers⟩ := hbase.exists_names
  obtain ⟨shared, up, down, rfl, rfl, hfork, hway⟩ := wayFrom?_names names others
  refine ⟨shared, up, down, hnames, hothers, hcomponents, hfork, ?_⟩
  have hdifference : p.difference? base =
      some (ofComponents (List.replicate up.length .parent ++ down.map .name)) := by
    rw [difference?, if_pos (hp.1.trans hbase.1.symm), hcomponents, hothers, wayFrom?,
      if_pos ⟨rfl, rfl⟩, hway, Option.map_some]
  rw [relativeTo, Option.bind_some, hdifference, Option.getD_some]

theorem isInner_of_mem_way {up : Nat} {down : List String} (h : ∀ name ∈ down, IsName name) :
    ∀ c ∈ List.replicate up .parent ++ down.map .name, Component.IsInner c := by
  intro c hc
  rcases List.mem_append.1 hc with hup | hdown
  · obtain rfl := List.eq_of_mem_replicate hup
    exact .parent
  · obtain ⟨name, hname, rfl⟩ := List.mem_map.1 hdown
    exact .name (h name hname)

/-- Followed from the folder, the way ends at the path. -/
theorem resolveFrom_relativeTo (hp : p.IsStraight) (hbase : base.IsStraight) :
    ((p.relativeTo (some base)).resolveFrom base).sameAs p = true := by
  obtain ⟨shared, up, down, hnames, hbelow, hcomponents, -, hway⟩ := exists_relativeTo hp hbase
  have hdown : ∀ name ∈ down, IsName name := fun name hname =>
    hnames name (List.mem_append_right shared hname)
  -- the `..` of the way take back the names of the folder that are not shared
  have hresolved : resolveNames (base.join (p.relativeTo (some base))).components =
      shared ++ down := by
    rw [hway, components_join_ofComponents hbase.1 (isInner_of_mem_way hdown), hbelow,
      List.map_append, ← List.cons_append, ← List.append_assoc, resolveNames_append_names,
      resolveNames_append_parents, ← List.singleton_append, resolveNames_append_names]
    rfl
  rw [sameAs_iff, resolveFrom, hresolved, if_pos (isAbsolute_join hbase.1 _),
    components_slash_join hnames, hcomponents]

/-- Only from a folder to itself there is no way to go. -/
theorem relativeTo_text_eq_empty_iff (hp : p.IsStraight) (hbase : base.IsStraight) :
    (p.relativeTo (some base)).text = "" ↔ p.sameAs base = true := by
  obtain ⟨shared, up, down, hnames, hbelow, hcomponents, hfork, hway⟩ := exists_relativeTo hp hbase
  have hdown : ∀ name ∈ down, IsName name := fun name hname =>
    hnames name (List.mem_append_right shared hname)
  rw [hway, ofComponents_text_eq_empty_iff (isInner_of_mem_way hdown), List.append_eq_nil_iff,
    List.replicate_eq_nil_iff, List.length_eq_zero_iff, List.map_eq_nil_iff, sameAs_iff, hbelow,
    hcomponents]
  constructor
  · rintro ⟨rfl, rfl⟩
    rfl
  · intro hsame
    have hnames' := (List.map_inj_right fun _ _ => Component.name.inj).1 (List.cons.inj hsame).2
    obtain rfl := List.append_cancel_left hnames'
    exact ⟨hfork rfl, hfork rfl⟩

end

end BuildSteps.Path
