import BuildSteps.Proofs.Path.FileName

/-!
# Characters of paths

A path that is made from other paths has no characters but theirs, separators and dots.
-/

namespace BuildSteps

variable {c : Char}

namespace Text

theorem mem_of_mem_splitChars {separator : Char} {text piece : List Char}
    (h : piece ∈ splitChars separator text) (hc : c ∈ piece) : c ∈ text := by
  induction text generalizing piece with
  | nil =>
    obtain rfl := List.mem_singleton.1 h
    exact hc
  | cons d text ih =>
    rw [splitChars] at h
    split at h
    · rcases List.mem_cons.1 h with rfl | hmem
      · cases hc
      · exact List.mem_cons_of_mem d (ih hmem hc)
    · split at h
      · next hnil => exact absurd hnil (splitChars_ne_nil separator text)
      · next first pieces hpieces =>
        rw [hpieces] at ih
        rcases List.mem_cons.1 h with rfl | hmem
        · rcases List.mem_cons.1 hc with rfl | hc
          · exact List.mem_cons_self
          · exact List.mem_cons_of_mem d (ih List.mem_cons_self hc)
        · exact List.mem_cons_of_mem d (ih (List.mem_cons_of_mem first hmem) hc)

theorem not_mem_join {separator : String} {texts : List String} (hsep : c ∉ separator.toList)
    (h : ∀ text ∈ texts, c ∉ text.toList) : c ∉ (join separator texts).toList := by
  induction texts with
  | nil => exact List.not_mem_nil
  | cons text texts ih =>
    obtain ⟨hfirst, hrest⟩ := List.forall_mem_cons.1 h
    cases texts with
    | nil => exact hfirst
    | cons next texts =>
      show c ∉ (text ++ separator ++ join separator (next :: texts)).toList
      rw [String.toList_append, String.toList_append, List.mem_append, List.mem_append]
      exact fun hmem => hmem.elim (fun hmem => hmem.elim hfirst hsep) (ih hrest)

end Text

namespace Path

/-! ## 1. Parts of a path -/

theorem not_mem_piece {p : Path} (h : c ∉ p.text.toList) {piece : String} (hpiece : piece ∈ p.pieces) :
    c ∉ piece.toList := by
  obtain ⟨chars, hchars, rfl⟩ := List.mem_map.1 hpiece
  rw [String.toList_ofList]
  exact fun hc => h (Text.mem_of_mem_splitChars hchars hc)

theorem not_mem_component {p : Path} (hsep : c ≠ '/') (hdot : c ≠ '.') (h : c ∉ p.text.toList)
    {component : Component} (hcomponent : component ∈ p.components) :
    c ∉ component.text.toList := by
  obtain ⟨⟨piece, shown⟩, hmem, rfl : shown = some component⟩ := List.mem_filterMap.1 hcomponent
  cases component with
  | root => exact fun hc => hsep (List.mem_singleton.1 hc)
  | current => exact fun hc => hdot (List.mem_singleton.1 hc)
  | parent => exact fun hc => hdot (by simpa [Component.text] using hc)
  | name text => exact not_mem_piece h (mem_of_mem_annotate hmem)

theorem not_mem_fileName {p : Path} (h : c ∉ p.text.toList) : c ∉ p.fileName.toList := by
  rw [fileName, fileName?]
  split
  · next text hlast =>
    obtain ⟨⟨piece, shown⟩, hmem, rfl : shown = some (.name text)⟩ := List.mem_filterMap.1
      (List.mem_of_getLast? hlast)
    exact not_mem_piece h (mem_of_mem_annotate hmem)
  · exact List.not_mem_nil

theorem not_mem_fileStem {p : Path} (h : c ∉ p.text.toList) : c ∉ p.fileStem.toList := by
  have hname := not_mem_fileName h
  rw [fileName] at hname
  rw [fileStem]
  cases hfile : p.fileName? with
  | none => exact List.not_mem_nil
  | some name =>
    rw [hfile] at hname
    exact fun hc => hname ((sublist_stem _).mem hc)

theorem dropSilent_subset (pieces : List String) : dropSilent pieces ⊆ pieces := by
  induction pieces with
  | nil => exact List.Subset.refl _
  | cons piece pieces ih =>
    cases pieces with
    | nil => exact List.Subset.refl _
    | cons next pieces =>
      rw [dropSilent]
      split
      · exact fun _ hmem => List.mem_cons_of_mem piece (ih hmem)
      · exact List.Subset.refl _
      · simp

theorem not_mem_parent? {p folder : Path} (hsep : c ≠ '/') (h : c ∉ p.text.toList)
    (hfolder : p.parent? = some folder) : c ∉ folder.text.toList := by
  rw [parent?] at hfolder
  split at hfolder
  · cases hfolder
  · split at hfolder
    · cases hfolder
    · obtain rfl := Option.some.inj hfolder
      exact List.not_mem_nil
  · next last rest hne hpieces =>
    -- the pieces that are left are pieces of the path
    have hrest : ∀ piece ∈ dropSilent rest, c ∉ piece.toList := fun piece hpiece => by
      have hmem : piece ∈ dropSilent p.pieces.reverse := by
        rw [hpieces]
        exact List.mem_cons_of_mem last (dropSilent_subset rest hpiece)
      exact not_mem_piece h (List.mem_reverse.1 (dropSilent_subset _ hmem))
    split at hfolder
    · obtain rfl := Option.some.inj hfolder
      exact fun hc => hsep (List.mem_singleton.1 hc)
    · obtain rfl := Option.some.inj hfolder
      exact Text.not_mem_join (fun hc => hsep (List.mem_singleton.1 hc)) fun piece hpiece =>
        hrest piece (List.mem_reverse.1 hpiece)

/-! ## 2. Paths made from others -/

theorem not_mem_join {p q : Path} (hsep : c ≠ '/') (hp : c ∉ p.text.toList)
    (hq : c ∉ q.text.toList) : c ∉ (p.join q).text.toList := by
  rw [join]
  split
  · exact hq
  · split
    · rw [String.toList_append, List.mem_append]
      exact fun hc => hc.elim hp hq
    · rw [String.toList_append, String.toList_append, List.mem_append, List.mem_append]
      exact fun hc => hc.elim (fun hc => hc.elim hp fun hc => hsep (List.mem_singleton.1 hc)) hq

theorem not_mem_ofComponents (hsep : c ≠ '/') {components : List Component}
    (h : ∀ component ∈ components, c ∉ component.text.toList) :
    c ∉ (ofComponents components).text.toList := by
  -- the components are joined one after the other to a path without the character
  have hfold : ∀ (components : List Component) (p : Path), c ∉ p.text.toList →
      (∀ component ∈ components, c ∉ component.text.toList) →
      c ∉ (components.foldl (fun p component => p.join ⟨component.text⟩) p).text.toList := by
    intro components
    induction components with
    | nil => exact fun p hp _ => hp
    | cons component components ih =>
      intro p hp hall
      obtain ⟨hfirst, hrest⟩ := List.forall_mem_cons.1 hall
      exact ih _ (not_mem_join hsep hp hfirst) hrest
  exact hfold components ⟨""⟩ List.not_mem_nil h

/-- The way from a folder to a path goes up, and down along components of the path. -/
theorem mem_of_wayFrom? {fresh : Bool} {components base way : List Component}
    (h : wayFrom? fresh components base = some way) {component : Component}
    (hmem : component ∈ way) : component = .parent ∨ component ∈ components := by
  fun_induction wayFrom? fresh components base generalizing way with
  | case1 fresh components =>
    obtain rfl := Option.some.inj h
    exact .inr hmem
  -- below the path itself there is nothing to go along
  | case2 fresh b base ih =>
    obtain ⟨rest, hrest, rfl⟩ := Option.map_eq_some_iff.1 h
    rcases List.mem_cons.1 hmem with rfl | hmem
    · exact .inl rfl
    · exact ih hrest hmem
  | case3 fresh first rest b base hshared ih =>
    exact (ih h hmem).imp_right (List.mem_cons_of_mem first)
  | case4 fresh first rest base hshared ih =>
    obtain ⟨rest', hrest, rfl⟩ := Option.map_eq_some_iff.1 h
    rcases List.mem_cons.1 hmem with rfl | hmem
    · exact .inr List.mem_cons_self
    · exact (ih hrest hmem).imp_right (List.mem_cons_of_mem first)
  | case5 => cases h
  | case6 fresh first rest b base hshared hcurrent hparent =>
    obtain rfl := Option.some.inj h
    rcases List.mem_cons.1 hmem with rfl | hmem
    · exact .inl rfl
    · rcases List.mem_append.1 hmem with hup | hdown
      · obtain ⟨_, -, rfl⟩ := List.mem_map.1 hup
        exact .inl rfl
      · exact .inr hdown

theorem not_mem_relativeTo {p : Path} (hsep : c ≠ '/') (hdot : c ≠ '.') (h : c ∉ p.text.toList)
    (base : Option Path) : c ∉ (p.relativeTo base).text.toList := by
  rw [relativeTo]
  cases hway : base.bind p.difference? with
  | none => exact h
  | some q =>
    obtain ⟨folder, -, hdifference⟩ := Option.bind_eq_some_iff.1 hway
    rw [difference?] at hdifference
    split at hdifference
    · obtain ⟨way, hway', rfl⟩ := Option.map_eq_some_iff.1 hdifference
      refine not_mem_ofComponents hsep fun component hmem => ?_
      rcases mem_of_wayFrom? hway' hmem with rfl | hcomponent
      · exact fun hc => hdot (by simpa [Component.text] using hc)
      · exact not_mem_component hsep hdot h hcomponent
    · split at hdifference
      · obtain rfl := Option.some.inj hdifference
        exact h
      · cases hdifference

/-! ## 3. The end of a way -/

theorem mem_join {p q : Path} (h : c ∈ q.text.toList) : c ∈ (p.join q).text.toList := by
  rw [join]
  split
  · exact h
  · split <;> rw [String.toList_append] <;> exact List.mem_append_right _ h

theorem mem_ofComponents {components : List Component} {last : Component}
    (hlast : components.getLast? = some last) (h : c ∈ last.text.toList) :
    c ∈ (ofComponents components).text.toList := by
  obtain ⟨front, rfl⟩ := List.getLast?_eq_some_iff.1 hlast
  rw [ofComponents, List.foldl_append]
  exact mem_join h

theorem wayFrom?_nil {fresh : Bool} {base way : List Component}
    (h : wayFrom? fresh [] base = some way) : way = List.replicate base.length .parent := by
  induction base generalizing fresh way with
  | nil => exact (Option.some.inj h).symm
  | cons b base ih =>
    obtain ⟨rest, hrest, rfl⟩ := Option.map_eq_some_iff.1 h
    rw [ih hrest]
    rfl

/-- A way goes up at its end, or ends with the last component of the path, unless the path is the
folder itself. -/
theorem getLast?_wayFrom? {fresh : Bool} {components base way : List Component}
    (h : wayFrom? fresh components base = some way) :
    way.getLast? = some .parent ∨ components ≠ [] ∧ way.getLast? = components.getLast? ∨
      components = base ∧ (fresh = true ∨ components = []) := by
  have hcons (first : Component) {rest : List Component} (hne : rest ≠ []) :
      (first :: rest).getLast? = rest.getLast? := by
    obtain ⟨second, rest, rfl⟩ := List.exists_cons_of_ne_nil hne
    exact List.getLast?_cons_cons
  have hsome {rest : List Component} {last : Component} (hlast : rest.getLast? = some last) :
      rest ≠ [] := by
    rintro rfl
    cases hlast
  fun_induction wayFrom? fresh components base generalizing way with
  | case1 fresh components =>
    obtain rfl := Option.some.inj h
    by_cases hne : components = []
    · exact .inr (.inr ⟨hne, .inr hne⟩)
    · exact .inr (.inl ⟨hne, rfl⟩)
  | case2 fresh b base =>
    have hway : way = List.replicate (base.length + 1) .parent := @wayFrom?_nil fresh (b :: base) way h
    exact .inl (by rw [hway, List.getLast?_replicate, if_neg (Nat.succ_ne_zero _)])
  | case3 fresh first rest b base hshared ih =>
    rcases ih h with hup | ⟨hne, hlast⟩ | ⟨heq, -⟩
    · exact .inl hup
    · exact .inr (.inl ⟨List.cons_ne_nil first rest, hlast.trans (hcons first hne).symm⟩)
    · exact .inr (.inr ⟨by rw [hshared.2, heq], .inl hshared.1⟩)
  | case4 fresh first rest base hshared ih =>
    obtain ⟨rest', hrest, rfl⟩ := Option.map_eq_some_iff.1 h
    rcases ih hrest with hup | ⟨hne, hlast⟩ | ⟨rfl, hnil⟩
    · exact .inl ((hcons first (hsome hup)).trans hup)
    · have hne' : rest' ≠ [] := hsome (hlast.trans (List.getLast?_eq_some_getLast hne))
      refine .inr (.inl ⟨List.cons_ne_nil first rest, ?_⟩)
      rw [hcons first hne, hcons first hne', hlast]
    -- a way that is not fresh ends where the path does
    · obtain rfl := hnil.resolve_left Bool.false_ne_true
      obtain rfl := Option.some.inj hrest
      exact .inr (.inl ⟨List.cons_ne_nil first [], rfl⟩)
  | case5 => cases h
  | case6 fresh first rest b base hshared hcurrent hparent =>
    obtain rfl := Option.some.inj h
    refine .inr (.inl ⟨List.cons_ne_nil first rest, ?_⟩)
    rw [List.getLast?_append_of_ne_nil]
    exact List.cons_ne_nil first rest

/-- A dot in the last name of a path is there from every other folder, since a way up has dots. -/
theorem dot_mem_relativeTo_join {name : String} (hname : IsName name) (hdot : '.' ∈ name.toList)
    {folder : Path} {base : Option Path}
    (hbase : ∀ b ∈ base, ¬ b.sameAs (folder.join ⟨name⟩) = true) :
    '.' ∈ ((folder.join ⟨name⟩).relativeTo base).text.toList := by
  have hself : '.' ∈ (folder.join ⟨name⟩).text.toList := mem_join hdot
  rw [relativeTo]
  cases hway : base.bind (folder.join ⟨name⟩).difference? with
  | none => exact hself
  | some q =>
    obtain ⟨b, hb, hdifference⟩ := Option.bind_eq_some_iff.1 hway
    rw [difference?] at hdifference
    split at hdifference
    · obtain ⟨way, hway', rfl⟩ := Option.map_eq_some_iff.1 hdifference
      rcases getLast?_wayFrom? hway' with hup | ⟨-, hlast⟩ | ⟨hsame, -⟩
      · exact mem_ofComponents hup (by decide)
      · rw [components_join_name hname, List.getLast?_concat] at hlast
        exact mem_ofComponents hlast hdot
      · exact absurd (sameAs_iff.2 hsame.symm) (hbase b hb)
    · split at hdifference
      · obtain rfl := Option.some.inj hdifference
        exact hself
      · cases hdifference

end Path

end BuildSteps
