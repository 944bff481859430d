import Mathlib.Data.List.Induction
import BuildSteps.Proofs.Path.FileName

/-!
# Components and texts

Behind its first component a path has names and `..` only. A relative path that is made from such
components has just these, and joined to a folder it adds them to the components of the folder.
-/

namespace BuildSteps.Path

/-! ## 1. Inner components -/

inductive Component.IsInner : Component → Prop
  | parent : IsInner .parent
  | name {text : String} : IsName text → IsInner (.name text)

theorem Component.IsInner.componentOfPiece? {c : Component} (h : c.IsInner) :
    componentOfPiece? c.text = some c := by
  cases h with
  | parent => rfl
  | name hname => exact hname.componentOfPiece?

theorem Component.IsInner.separator_not_mem {c : Component} (h : c.IsInner) :
    '/' ∉ c.text.toList := by
  cases h with
  | parent => decide
  | name hname => exact hname.noSeparator

theorem Component.IsInner.text_ne_empty {c : Component} (h : c.IsInner) : c.text ≠ "" := by
  cases h with
  | parent => decide
  | name hname => exact hname.nonempty

/-- What a piece without separators stands for is an inner component. -/
theorem isInner_of_componentOfPiece? {piece : String} {c : Component} (hsep : '/' ∉ piece.toList)
    (h : componentOfPiece? piece = some c) : c.IsInner := by
  rw [componentOfPiece?] at h
  split at h
  · cases h
  · next hsilent =>
    obtain ⟨hempty, hdot⟩ := not_or.1 hsilent
    split at h
    · obtain rfl := Option.some.inj h
      exact .parent
    · next hparent =>
      obtain rfl := Option.some.inj h
      exact .name ⟨hempty, hdot, hparent, hsep⟩

theorem separator_not_mem_piece {p : Path} {piece : String} (h : piece ∈ p.pieces) :
    '/' ∉ piece.toList := by
  obtain ⟨chars, hchars, rfl⟩ := List.mem_map.1 h
  rw [String.toList_ofList]
  exact Text.not_mem_of_mem_splitChars hchars

theorem pieces_ne_nil (p : Path) : p.pieces ≠ [] :=
  mt List.map_eq_nil_iff.1 (Text.splitChars_ne_nil '/' p.text.toList)

/-! ## 2. Absolute paths -/

/-- The pieces of an absolute path behind the empty one in front of its first separator. -/
theorem exists_pieces_of_isAbsolute {p : Path} (h : p.isAbsolute = true) :
    ∃ pieces, pieces ≠ [] ∧ p.pieces = "" :: pieces := by
  obtain ⟨rest, htext⟩ := List.head?_eq_some_iff.1 (beq_iff_eq.1 h)
  refine ⟨(Text.splitChars '/' rest).map String.ofList,
    mt List.map_eq_nil_iff.1 (Text.splitChars_ne_nil '/' rest), ?_⟩
  rw [pieces, Text.split, htext, Text.splitChars, if_pos rfl, List.map_cons]

theorem components_of_pieces {p : Path} {pieces : List String} (hne : pieces ≠ [])
    (h : p.pieces = "" :: pieces) :
    p.components = .root :: pieces.filterMap componentOfPiece? := by
  rw [components, h, annotate_cons "" hne, List.filterMap_cons, List.filterMap_map]
  rfl

theorem exists_components_of_isAbsolute {p : Path} (h : p.isAbsolute = true) :
    ∃ inner : List Component, (∀ c ∈ inner, c.IsInner) ∧ p.components = .root :: inner := by
  obtain ⟨pieces, hne, hpieces⟩ := exists_pieces_of_isAbsolute h
  refine ⟨_, fun c hc => ?_, components_of_pieces hne hpieces⟩
  obtain ⟨piece, hpiece, hcomponent⟩ := List.mem_filterMap.1 hc
  refine isInner_of_componentOfPiece? (separator_not_mem_piece (p := p) ?_) hcomponent
  rw [hpieces]
  exact List.mem_cons_of_mem _ hpiece

theorem pieces_slash (text : String) : pieces ⟨"/" ++ text⟩ = "" :: Text.split '/' text := by
  have htext : ("/" ++ text).toList = '/' :: text.toList := String.toList_append
  rw [pieces, Text.split, htext, Text.splitChars, if_pos rfl, List.map_cons, Text.split]

theorem components_slash_join {names : List String} (h : ∀ name ∈ names, IsName name) :
    components ⟨"/" ++ Text.join "/" names⟩ = .root :: names.map .name := by
  by_cases hnil : names = []
  · subst hnil
    rfl
  · have hsplit : Text.split '/' (Text.join "/" names) = names :=
      Text.split_join hnil fun name hname => (h name hname).noSeparator
    have hpieces := pieces_slash (Text.join "/" names)
    rw [hsplit] at hpieces
    rw [components_of_pieces hnil hpieces, List.filterMap_eq_map_iff_forall_eq_some.2]
    exact fun name hname => (h name hname).componentOfPiece?

/-! ## 3. Relative paths -/

theorem Component.IsInner.isAbsolute {c : Component} (h : c.IsInner) :
    Path.isAbsolute ⟨c.text⟩ = false := by
  rw [Path.isAbsolute, beq_eq_false_iff_ne]
  exact fun hhead => h.separator_not_mem (List.mem_of_mem_head? hhead)

theorem text_join {p q : Path} (h : q.isAbsolute = false) :
    ∃ separator, (separator = "" ∨ separator = "/") ∧
      (p.join q).text = p.text ++ separator ++ q.text := by
  rw [join, if_neg (by rw [h]; exact Bool.false_ne_true)]
  split
  · exact ⟨"", .inl rfl, by rw [String.append_empty]⟩
  · exact ⟨"/", .inr rfl, rfl⟩

theorem text_join_join {p : Path} {c d : Component} (hc : c.IsInner) (hd : d.IsInner) :
    ((p.join ⟨c.text⟩).join ⟨d.text⟩).text = (p.join ⟨c.text⟩).text ++ "/" ++ d.text := by
  have hne : c.text.toList ≠ [] := fun hnil => hc.text_ne_empty (String.toList_eq_nil_iff.1 hnil)
  -- whatever is in front of it, the text ends in the component
  have hend : ∃ front, (p.join ⟨c.text⟩).text = front ++ c.text := by
    rw [join, if_neg (by rw [hc.isAbsolute]; exact Bool.false_ne_true)]
    split
    · exact ⟨p.text, rfl⟩
    · exact ⟨p.text ++ "/", rfl⟩
  obtain ⟨front, htext⟩ := hend
  have hlast : (p.join ⟨c.text⟩).text.toList.getLast? = c.text.toList.getLast? := by
    rw [htext, String.toList_append, List.getLast?_append_of_ne_nil _ hne]
  have hnonempty : (p.join ⟨c.text⟩).text ≠ "" := fun hempty => by
    rw [htext, String.append_eq_empty_iff] at hempty
    exact hc.text_ne_empty hempty.2
  rw [join, if_neg (by rw [hd.isAbsolute]; exact Bool.false_ne_true), if_neg]
  rw [Bool.or_eq_true, beq_iff_eq, String.isEmpty_iff, hlast]
  exact not_or.2 ⟨hnonempty, fun h => hc.separator_not_mem (List.mem_of_mem_getLast? h)⟩

theorem ofComponents_append (components : List Component) (last : Component) :
    ofComponents (components ++ [last]) = (ofComponents components).join ⟨last.text⟩ :=
  List.foldl_concat _ _ _ _

theorem text_ofComponents {inner : List Component} (h : ∀ c ∈ inner, c.IsInner) :
    (ofComponents inner).text = Text.join "/" (inner.map Component.text) := by
  induction inner using List.reverseRecOn with
  | nil => rfl
  | append_singleton inner last ih =>
    have hlast := h last (List.mem_append_right _ List.mem_cons_self)
    have hinner : ∀ c ∈ inner, c.IsInner := fun c hc => h c (List.mem_append_left [last] hc)
    replace ih := ih hinner
    rw [ofComponents_append]
    cases inner using List.reverseRecOn with
    | nil =>
      rw [join, if_neg (by rw [hlast.isAbsolute]; exact Bool.false_ne_true)]
      exact String.empty_append
    | append_singleton front next _ =>
      have hnext := hinner next (List.mem_append_right _ List.mem_cons_self)
      rw [ofComponents_append] at ih ⊢
      have htexts : (front ++ [next] ++ [last]).map Component.text =
          (front ++ [next]).map Component.text ++ [last.text] := List.map_append
      rw [text_join_join hnext hlast, ih, htexts,
        Text.join_append "/" (by simp) (List.cons_ne_nil last.text [])]
      rfl

theorem pieces_ofComponents {inner : List Component} (h : ∀ c ∈ inner, c.IsInner)
    (hne : inner ≠ []) : (ofComponents inner).pieces = inner.map Component.text := by
  rw [pieces, text_ofComponents h]
  refine Text.split_join (mt List.map_eq_nil_iff.1 hne) fun text htext => ?_
  obtain ⟨c, hc, rfl⟩ := List.mem_map.1 htext
  exact (h c hc).separator_not_mem

theorem ofComponents_text_eq_empty_iff {inner : List Component} (h : ∀ c ∈ inner, c.IsInner) :
    (ofComponents inner).text = "" ↔ inner = [] := by
  refine ⟨fun hempty => ?_, fun hnil => hnil ▸ rfl⟩
  by_contra hne
  have hpieces := pieces_ofComponents h hne
  rw [pieces, hempty] at hpieces
  obtain ⟨c, rest, rfl⟩ := List.exists_cons_of_ne_nil hne
  exact (h c List.mem_cons_self).text_ne_empty (List.cons.inj hpieces).1.symm

theorem isAbsolute_ofComponents {inner : List Component} (h : ∀ c ∈ inner, c.IsInner) :
    (ofComponents inner).isAbsolute = false := by
  cases inner with
  | nil => rfl
  | cons first rest =>
    have hfirst := h first List.mem_cons_self
    have hne : first.text.toList ≠ [] := fun hnil =>
      hfirst.text_ne_empty (String.toList_eq_nil_iff.1 hnil)
    -- the text starts as its first component does
    have hhead : (Text.join "/" ((first :: rest).map Component.text)).toList.head? =
        first.text.toList.head? := by
      cases rest with
      | nil => rfl
      | cons next rest =>
        show (first.text ++ "/" ++ _).toList.head? = _
        rw [String.toList_append, String.toList_append, List.append_assoc,
          List.head?_append_of_ne_nil _ hne]
    rw [isAbsolute, text_ofComponents h, hhead]
    exact hfirst.isAbsolute

/-- The pieces of a relative path follow those of the folder, in place of the empty piece at its end
when there is one. -/
theorem exists_pieces_join {folder p : Path} (hfolder : folder.text ≠ "")
    (hp : p.isAbsolute = false) :
    ∃ front, (folder.join p).pieces = front ++ p.pieces ∧
      (folder.pieces = front ∨ folder.pieces = front ++ [""]) := by
  have hsplit (text more : String) :
      Text.split '/' (text ++ "/" ++ more) = Text.split '/' text ++ Text.split '/' more := by
    have hchars : (text ++ "/" ++ more).toList = text.toList ++ '/' :: more.toList := by
      rw [String.toList_append, String.toList_append, List.append_assoc]
      rfl
    rw [Text.split, hchars, Text.splitChars_append_separator, List.map_append]
    rfl
  rw [join, if_neg (by rw [hp]; exact Bool.false_ne_true)]
  by_cases hend : folder.text.toList.getLast? = some '/'
  -- the folder brings its separator along
  · obtain ⟨front, hfront⟩ := List.getLast?_eq_some_iff.1 hend
    have htext : folder.text = String.ofList front ++ "/" := by
      rw [← String.toList_inj, hfront, String.toList_append, String.toList_ofList]
      rfl
    refine ⟨Text.split '/' (String.ofList front), ?_, .inr ?_⟩
    · rw [if_pos (by rw [hend, beq_self_eq_true, Bool.or_true]), pieces, htext, hsplit, pieces]
    · rw [pieces, htext, ← String.append_empty (s := String.ofList front ++ "/"), hsplit]
      rfl
  · refine ⟨folder.pieces, ?_, .inl rfl⟩
    rw [if_neg, pieces, hsplit, pieces, pieces]
    rw [Bool.or_eq_true, beq_iff_eq, String.isEmpty_iff]
    exact not_or.2 ⟨hfolder, hend⟩

theorem text_ne_empty_of_isAbsolute {p : Path} (h : p.isAbsolute = true) : p.text ≠ "" := by
  intro hempty
  rw [isAbsolute, hempty] at h
  cases h

theorem isAbsolute_join {folder : Path} (hfolder : folder.isAbsolute = true) (p : Path) :
    (folder.join p).isAbsolute = true := by
  have hne : folder.text.toList ≠ [] := fun hnil =>
    text_ne_empty_of_isAbsolute hfolder (String.toList_eq_nil_iff.1 hnil)
  rw [join]
  split
  · assumption
  -- the first character of the folder stays the first one
  · rw [← hfolder]
    split
    · rw [isAbsolute, isAbsolute, String.toList_append, List.head?_append_of_ne_nil _ hne]
    · rw [isAbsolute, isAbsolute, String.toList_append, String.toList_append, List.append_assoc,
        List.head?_append_of_ne_nil _ hne]

def componentOfFirst? (piece : String) : Option Component :=
  if piece = "" then some .root else if piece = "." then some .current
  else componentOfPiece? piece

/-- In a text that is not empty the pieces have their meaning however many there are. -/
theorem annotate_of_pieces {p : Path} (hp : p.text ≠ "") {first : String} {rest : List String}
    (h : p.pieces = first :: rest) :
    annotate p.pieces = (first, componentOfFirst? first) ::
      rest.map fun piece => (piece, componentOfPiece? piece) := by
  rw [h]
  cases rest with
  | nil =>
    -- a first piece without others behind it is not the root
    have hfirst : first ≠ "" := fun hempty => hp (text_eq_empty_of_pieces (hempty ▸ h))
    rw [annotate, componentOfFirst?, if_neg hfirst, List.map_nil]
  | cons second rest => exact annotate_cons first (List.cons_ne_nil second rest)

theorem components_of_pieces_cons {p : Path} (hp : p.text ≠ "") {first : String}
    {rest : List String} (h : p.pieces = first :: rest) :
    p.components = (componentOfFirst? first).toList ++ rest.filterMap componentOfPiece? := by
  rw [components, annotate_of_pieces hp h, ← List.singleton_append, List.filterMap_append,
    List.filterMap_map]
  show [(first, componentOfFirst? first)].filterMap (·.2) ++ _ = _
  cases hc : componentOfFirst? first <;> rfl

/-- A relative path adds what its pieces stand for to the components of a folder. -/
theorem components_join {folder p : Path} (hfolder : folder.text ≠ "")
    (hp : p.isAbsolute = false) :
    (folder.join p).components = folder.components ++ p.pieces.filterMap componentOfPiece? := by
  obtain ⟨front, hjoin, hfront⟩ := exists_pieces_join hfolder hp
  cases front with
  | nil =>
    rcases hfront with hnil | hempty
    · exact absurd hnil folder.pieces_ne_nil
    · exact absurd (text_eq_empty_of_pieces hempty) hfolder
  | cons first more =>
    rw [List.cons_append] at hjoin hfront
    have hne : (folder.join p).text ≠ "" := fun hempty => by
      rw [pieces, hempty] at hjoin
      exact List.append_ne_nil_of_right_ne_nil more p.pieces_ne_nil (List.cons.inj hjoin).2.symm
    rw [components_of_pieces_cons hne hjoin, List.filterMap_append]
    rcases hfront with hfront | hfront
    · rw [components_of_pieces_cons hfolder hfront, List.append_assoc]
    -- the empty piece at the end stands for nothing
    · have hempty : [""].filterMap componentOfPiece? = [] := rfl
      rw [components_of_pieces_cons hfolder hfront, List.filterMap_append, hempty, List.append_nil,
        List.append_assoc]

theorem components_join_ofComponents {folder : Path} (hfolder : folder.isAbsolute = true)
    {inner : List Component} (h : ∀ c ∈ inner, c.IsInner) :
    (folder.join (ofComponents inner)).components = folder.components ++ inner := by
  rw [components_join (text_ne_empty_of_isAbsolute hfolder) (isAbsolute_ofComponents h)]
  congr 1
  by_cases hnil : inner = []
  · subst hnil
    rfl
  · rw [pieces_ofComponents h hnil, List.filterMap_map]
    have hsome := List.filterMap_congr fun c hc => (h c hc).componentOfPiece?
    exact hsome.trans List.filterMap_some

end BuildSteps.Path
