import Mathlib.Data.List.DropRight
import BuildSteps.Proofs.Path.Components

/-!
# Ancestors

Two paths share the components that both start with. The longest path that both start with has just
these components, and what is left of a path below a folder has those that follow.
-/

namespace BuildSteps.Path

/-! ## 1. Shared components -/

def shared : List Component → List Component → List Component
  | c :: components, d :: others => if c = d then c :: shared components others else []
  | _, _ => []

def unshared : List Component → List Component → List Component
  | c :: components, d :: others => if c = d then unshared components others else c :: components
  | components, _ => components

theorem shared_append_unshared (components others : List Component) :
    shared components others ++ unshared components others = components := by
  fun_induction shared components others with
  | case1 components c others ih => rw [unshared, if_pos rfl, List.cons_append, ih]
  | case2 c components d others hne => rw [unshared, if_neg hne, List.nil_append]
  | case3 components others hends =>
    cases components with
    | nil => rw [unshared, List.nil_append]; simp
    | cons c components =>
      cases others with
      | nil => rfl
      | cons d others => exact absurd rfl (hends c components d others rfl)

theorem isPrefix_shared (components others : List Component) :
    shared components others <+: components :=
  ⟨_, shared_append_unshared components others⟩

theorem unshared_append (front components others : List Component) :
    unshared (front ++ components) (front ++ others) = unshared components others := by
  induction front with
  | nil => rfl
  | cons c front ih => rw [List.cons_append, List.cons_append, unshared, if_pos rfl, ih]

theorem unshared_append_self (front rest : List Component) :
    unshared (front ++ rest) front = rest := by
  have h := unshared_append front rest []
  rw [List.append_nil] at h
  rw [h]
  cases rest <;> rfl

theorem map_takeWhile_zip (components others : List Component) :
    ((components.zip others).takeWhile fun pair => pair.1 == pair.2).map (·.1) =
      shared components others := by
  fun_induction shared components others with
  | case1 components c others ih =>
    rw [List.zip_cons_cons, List.takeWhile_cons, if_pos (by exact beq_self_eq_true c),
      List.map_cons, ih]
  | case2 c components d others hne =>
    rw [List.zip_cons_cons, List.takeWhile_cons_of_neg (by simpa using hne), List.map_nil]
  | case3 components others hends =>
    cases components with
    | nil => rfl
    | cons c components =>
      cases others with
      | nil => rfl
      | cons d others => exact absurd rfl (hends c components d others rfl)

/-! ## 2. Paths from components -/

theorem text_ne_empty_of_components {p : Path} (h : p.components ≠ []) : p.text ≠ "" := by
  intro hempty
  refine h ?_
  rw [components, pieces, hempty]
  rfl

theorem componentOfFirst?_of_componentOfPiece? {piece : String} {c : Component}
    (h : componentOfPiece? piece = some c) : componentOfFirst? piece = some c := by
  have hsilent : ¬ (piece = "" ∨ piece = ".") := fun hor => by
    rw [componentOfPiece?, if_pos hor] at h
    cases h
  rw [componentOfFirst?, if_neg fun hempty => hsilent (.inl hempty),
    if_neg fun hdot => hsilent (.inr hdot), h]

theorem Component.IsInner.pieces {c : Component} (h : c.IsInner) :
    Path.pieces ⟨c.text⟩ = [c.text] := by
  rw [Path.pieces, Text.split, Text.splitChars_of_not_mem h.separator_not_mem, List.map_singleton,
    String.ofList_toList]

theorem Component.IsInner.components {c : Component} (h : c.IsInner) :
    Path.components ⟨c.text⟩ = [c] := by
  rw [components_of_pieces_cons (p := ⟨c.text⟩) h.text_ne_empty h.pieces,
    componentOfFirst?_of_componentOfPiece? h.componentOfPiece?]
  rfl

theorem isInner_of_mem_tail {p : Path} {c : Component} (h : c ∈ p.components.tail) :
    c.IsInner := by
  have hp : p.text ≠ "" := text_ne_empty_of_components fun hnil => by
    rw [hnil] at h
    cases h
  obtain ⟨first, rest, hpieces⟩ := List.exists_cons_of_ne_nil p.pieces_ne_nil
  rw [components_of_pieces_cons hp hpieces] at h
  have hrest : c ∈ rest.filterMap componentOfPiece? := by
    cases hfirst : componentOfFirst? first with
    | none =>
      rw [hfirst] at h
      exact List.mem_of_mem_tail h
    | some d =>
      rw [hfirst] at h
      exact h
  obtain ⟨piece, hpiece, hc⟩ := List.mem_filterMap.1 hrest
  refine isInner_of_componentOfPiece? (separator_not_mem_piece (p := p) ?_) hc
  rw [hpieces]
  exact List.mem_cons_of_mem first hpiece

theorem components_text {p : Path} {c : Component} (h : c ∈ p.components) :
    components ⟨c.text⟩ = [c] := by
  have hp : p.text ≠ "" := text_ne_empty_of_components (List.ne_nil_of_mem h)
  obtain ⟨first, rest, hpieces⟩ := List.exists_cons_of_ne_nil p.pieces_ne_nil
  have hsep : ∀ piece ∈ first :: rest, '/' ∉ piece.toList := fun piece hpiece =>
    separator_not_mem_piece (hpieces ▸ hpiece)
  rw [components_of_pieces_cons hp hpieces, List.mem_append, Option.mem_toList,
    List.mem_filterMap] at h
  rcases h with hfirst | ⟨piece, hpiece, hc⟩
  · rw [componentOfFirst?] at hfirst
    split at hfirst
    · obtain rfl := Option.some.inj hfirst
      rfl
    · split at hfirst
      · obtain rfl := Option.some.inj hfirst
        rfl
      · exact (isInner_of_componentOfPiece? (hsep first List.mem_cons_self) hfirst).components
  · exact (isInner_of_componentOfPiece? (hsep piece (List.mem_cons_of_mem first hpiece))
      hc).components

theorem empty_join (p : Path) : join ⟨""⟩ p = p := by
  rw [join]
  split
  · rfl
  · rw [if_pos (by rfl)]
    exact congrArg Path.mk String.empty_append

theorem components_foldl_join {folder : Path} (hfolder : folder.text ≠ "")
    {inner : List Component} (h : ∀ c ∈ inner, c.IsInner) :
    (inner.foldl (fun p c => p.join ⟨c.text⟩) folder).components = folder.components ++ inner := by
  induction inner generalizing folder with
  | nil => exact (List.append_nil _).symm
  | cons c inner ih =>
    obtain ⟨hc, hinner⟩ := List.forall_mem_cons.1 h
    have hjoin : (folder.join ⟨c.text⟩).components = folder.components ++ [c] := by
      rw [components_join hfolder hc.isAbsolute, hc.pieces, List.filterMap_cons,
        hc.componentOfPiece?]
      rfl
    have hne : (folder.join ⟨c.text⟩).text ≠ "" := text_ne_empty_of_components (by simp [hjoin])
    rw [List.foldl_cons, ih hne hinner, hjoin, List.append_assoc, List.singleton_append]

/-- A path of inner components adds these to a folder. -/
theorem components_join_of_inner {folder p : Path} (hfolder : folder.text ≠ "")
    (h : ∀ c ∈ p.components, c.IsInner) :
    (folder.join p).components = folder.components ++ p.components := by
  have hrelative : p.isAbsolute = false := by
    refine Bool.eq_false_iff.2 fun habsolute => ?_
    obtain ⟨inner, -, hcomponents⟩ := exists_components_of_isAbsolute habsolute
    cases h .root (hcomponents ▸ List.mem_cons_self)
  rw [components_join hfolder hrelative]
  congr 1
  by_cases hp : p.text = ""
  · rw [components, pieces, hp]
    rfl
  · obtain ⟨first, rest, hpieces⟩ := List.exists_cons_of_ne_nil p.pieces_ne_nil
    have hcomponents := components_of_pieces_cons hp hpieces
    -- neither the root nor a single dot is in front
    have hfirst : componentOfFirst? first = componentOfPiece? first := by
      rw [componentOfFirst?] at hcomponents ⊢
      split at hcomponents
      · cases h .root (hcomponents ▸ List.mem_cons_self)
      · split at hcomponents
        · cases h .current (hcomponents ▸ List.mem_cons_self)
        · next hempty hdot => rw [if_neg hempty, if_neg hdot]
    rw [hcomponents, hfirst, hpieces, List.filterMap_cons]
    cases componentOfPiece? first <;> rfl

theorem components_ofComponents {p : Path} {front : List Component} (h : front <+: p.components) :
    (ofComponents front).components = front := by
  cases front with
  | nil => rfl
  | cons first inner =>
    have hfirst := components_text (h.subset List.mem_cons_self)
    have hinner : ∀ c ∈ inner, c.IsInner := fun c hc => by
      obtain ⟨rest, hrest⟩ := h
      exact isInner_of_mem_tail (p := p) (by rw [← hrest]; exact List.mem_append_left rest hc)
    have hne : (⟨first.text⟩ : Path).text ≠ "" := text_ne_empty_of_components (by simp [hfirst])
    rw [ofComponents, List.foldl_cons, empty_join, components_foldl_join hne hinner, hfirst,
      List.singleton_append]

theorem components_commonAncestor (p q : Path) :
    (p.commonAncestor q).components = shared p.components q.components := by
  rw [commonAncestor, map_takeWhile_zip, components_ofComponents (isPrefix_shared _ _)]

/-! ## 3. Below a folder -/

theorem filterMap_dropComponents (n : Nat) (pieces : List (String × Option Component)) :
    (dropComponents n pieces).filterMap (·.2) = (pieces.filterMap (·.2)).drop n := by
  fun_induction dropComponents n pieces with
  | case1 pieces => rfl
  | case2 n hn => simp
  | case3 n piece c pieces ih => rw [ih]; rfl
  | case4 n piece pieces ih => rw [ih]; rfl

theorem dropComponents_suffix (n : Nat) (pieces : List (String × Option Component)) :
    dropComponents n pieces <:+ pieces := by
  fun_induction dropComponents n pieces with
  | case1 pieces => exact List.suffix_rfl
  | case2 n hn => exact List.suffix_rfl
  | case3 n piece c pieces ih => exact ih.trans (List.suffix_cons _ _)
  | case4 n piece pieces ih => exact ih.trans (List.suffix_cons _ _)

theorem dropComponents_succ_suffix (n : Nat) (first : String × Option Component)
    (pieces : List (String × Option Component)) :
    dropComponents (n + 1) (first :: pieces) <:+ pieces := by
  obtain ⟨piece, _ | c⟩ := first
  · exact dropComponents_suffix _ pieces
  · exact dropComponents_suffix _ pieces

theorem filterMap_dropWhile_isNone (pieces : List (String × Option Component)) :
    (pieces.dropWhile (·.2.isNone)).filterMap (·.2) = pieces.filterMap (·.2) := by
  induction pieces with
  | nil => rfl
  | cons first pieces ih =>
    obtain ⟨piece, _ | c⟩ := first
    · exact ih
    · rfl

theorem filterMap_rdropWhile_isNone (pieces : List (String × Option Component)) :
    (pieces.rdropWhile (·.2.isNone)).filterMap (·.2) = pieces.filterMap (·.2) := by
  rw [List.rdropWhile, List.filterMap_reverse, filterMap_dropWhile_isNone, List.filterMap_reverse,
    List.reverse_reverse]

section

variable {first : String × Option Component} {rest : List (String × Option Component)}

/-- Pieces keep their meaning in the text that joins them, unless there is an empty one alone. -/
theorem annotate_map_fst (hfirst : first.2 = componentOfFirst? first.1)
    (hrest : ∀ piece ∈ rest, piece.2 = componentOfPiece? piece.1)
    (halone : first.1 = "" → rest ≠ []) :
    annotate ((first :: rest).map (·.1)) = first :: rest := by
  cases rest with
  | nil =>
    have hne : first.1 ≠ "" := fun hempty => halone hempty rfl
    rw [componentOfFirst?, if_neg hne] at hfirst
    rw [List.map_cons, List.map_nil, annotate, ← hfirst]
  | cons second rest =>
    have hmap : (second :: rest).map (fun piece => (piece.1, componentOfPiece? piece.1)) =
        second :: rest :=
      (List.map_congr_left fun piece hpiece => by rw [← hrest piece hpiece]; rfl).trans
        (List.map_id _)
    rw [List.map_cons, annotate_cons _ (by simp), List.map_map]
    show (first.1, componentOfFirst? first.1) :: List.map _ _ = _
    rw [← hfirst]
    exact congrArg (first :: ·) hmap

/-- Pieces at the end that carry no meaning can be left out of the text. -/
theorem components_trimmedText (hfirst : first.2 = componentOfFirst? first.1)
    (hrest : ∀ piece ∈ rest, piece.2 = componentOfPiece? piece.1)
    (hsep : ∀ piece ∈ first :: rest, '/' ∉ piece.1.toList) :
    components ⟨trimmedText (first :: rest)⟩ = (first :: rest).filterMap (·.2) := by
  have hkept := List.rdropWhile_prefix (·.2.isNone) (first :: rest)
  rw [← filterMap_rdropWhile_isNone, trimmedText, ← List.rdropWhile]
  split
  · next hroot => rw [hroot]; rfl
  · next hother =>
    cases hm : (first :: rest).rdropWhile (·.2.isNone) with
    | nil => rfl
    | cons head more =>
      rw [hm] at hkept hother
      obtain ⟨rfl, hmore⟩ := List.cons_prefix_cons.1 hkept
      have hsplit : pieces ⟨Text.join "/" ((head :: more).map (·.1))⟩ =
          (head :: more).map (·.1) := by
        refine Text.split_join (by simp) fun text htext => ?_
        obtain ⟨piece, hpiece, rfl⟩ := List.mem_map.1 htext
        exact hsep piece (hkept.subset hpiece)
      rw [components, hsplit, annotate_map_fst hfirst fun piece hpiece =>
        hrest piece (hmore.subset hpiece)]
      -- an empty piece that stands alone is the root, which has a text of its own
      rintro hempty rfl
      rw [hempty] at hfirst
      exact hother "" (congrArg ([·]) (Prod.ext hempty hfirst))

end

/-- The pieces of a text that is not empty, with what they stand for. -/
theorem exists_annotate {p : Path} (hp : p.text ≠ "") :
    ∃ first rest, annotate p.pieces = first :: rest ∧ first.2 = componentOfFirst? first.1 ∧
      (∀ piece ∈ rest, piece.2 = componentOfPiece? piece.1) ∧
      ∀ piece ∈ first :: rest, '/' ∉ piece.1.toList := by
  obtain ⟨first, rest, hpieces⟩ := List.exists_cons_of_ne_nil p.pieces_ne_nil
  have hsep : ∀ piece ∈ first :: rest, '/' ∉ piece.toList := fun piece hpiece =>
    separator_not_mem_piece (hpieces ▸ hpiece)
  obtain ⟨hfirst, hrest⟩ := List.forall_mem_cons.1 hsep
  refine ⟨_, _, annotate_of_pieces hp hpieces, rfl, List.forall_mem_map.2 fun _ _ => rfl, ?_⟩
  exact List.forall_mem_cons.2 ⟨hfirst, List.forall_mem_map.2 hrest⟩

theorem components_trimmedText_annotate (p : Path) :
    components ⟨trimmedText (annotate p.pieces)⟩ = p.components := by
  by_cases hp : p.text = ""
  · rw [components, components, pieces, pieces, hp]
    rfl
  · obtain ⟨first, rest, hannotate, hfirst, hrest, hsep⟩ := exists_annotate hp
    rw [hannotate, components_trimmedText hfirst hrest hsep, components, hannotate]

theorem components_trimmedText_dropComponents (p : Path) (n : Nat) :
    components ⟨trimmedText
      ((dropComponents (n + 1) (annotate p.pieces)).dropWhile (·.2.isNone))⟩ =
        p.components.drop (n + 1) := by
  rw [components.eq_1 p, ← filterMap_dropComponents, ← filterMap_dropWhile_isNone]
  by_cases hp : p.text = ""
  · rw [pieces, hp]
    rfl
  · obtain ⟨first, rest, hannotate, hfirst, hrest, hsep⟩ := exists_annotate hp
    rw [hannotate]
    -- the piece in front now is one of those behind the first one
    have hsuffix := (List.dropWhile_suffix (·.2.isNone)).trans
      (dropComponents_succ_suffix n first rest)
    cases hdrop : (dropComponents (n + 1) (first :: rest)).dropWhile (·.2.isNone) with
    | nil => rfl
    | cons head more =>
      rw [hdrop] at hsuffix
      have hhead := List.head?_dropWhile_not (·.2.isNone) (dropComponents (n + 1) (first :: rest))
      rw [hdrop] at hhead
      obtain ⟨c, hc⟩ := Option.isSome_iff_exists.1 (Option.isNone_eq_false_iff.1 hhead)
      have hpiece := hrest head (hsuffix.subset List.mem_cons_self)
      refine components_trimmedText ?_ (fun piece hmem => ?_) fun piece hmem => ?_
      · rw [hc, componentOfFirst?_of_componentOfPiece? (hpiece.symm.trans hc)]
      · exact hrest piece (hsuffix.subset (List.mem_cons_of_mem head hmem))
      · exact hsep piece (List.mem_cons_of_mem first (hsuffix.subset hmem))

/-- What is left of a path below a folder has the components that follow those of the folder. -/
theorem components_below? {base p q : Path} (h : base.below? p = some q) :
    p.components = base.components ++ q.components := by
  rw [below?] at h
  split at h
  · next hstarts =>
    have hdrop := List.prefix_iff_eq_append.1 (List.isPrefixOf_iff_prefix.1 hstarts)
    have hq := (Option.some.inj h).symm
    cases hbase : base.components with
    | nil =>
      rw [hbase, if_pos (by rfl), List.length_nil, dropComponents] at hq
      rw [hq, components_trimmedText_annotate, List.nil_append]
    | cons c rest =>
      rw [hbase] at hdrop
      rw [hbase, if_neg (by simp), List.length_cons] at hq
      rw [hq, components_trimmedText_dropComponents]
      exact hdrop.symm
  · cases h

theorem below?_eq_none_iff {base p : Path} :
    base.below? p = none ↔ ¬ base.components <+: p.components := by
  rw [below?, ← List.isPrefixOf_iff_prefix]
  split <;> simp_all

end BuildSteps.Path
