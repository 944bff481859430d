import BuildSteps.Path
import BuildSteps.Proofs.Text.Split

/-!
# File names

A name that is put below a folder is the file name of the path that results. File names and their
stems hold no separator.
-/

namespace BuildSteps.Path

/-! ## 1. The last piece -/

structure IsName (text : String) : Prop where
  nonempty : text ≠ ""
  notCurrent : text ≠ "."
  notParent : text ≠ ".."
  noSeparator : '/' ∉ text.toList

instance (text : String) : Decidable (IsName text) :=
  decidable_of_iff (text ≠ "" ∧ text ≠ "." ∧ text ≠ ".." ∧ '/' ∉ text.toList)
    ⟨fun ⟨h, h', h'', hsep⟩ => ⟨h, h', h'', hsep⟩, fun ⟨h, h', h'', hsep⟩ => ⟨h, h', h'', hsep⟩⟩

theorem IsName.componentOfPiece? {text : String} (h : IsName text) :
    componentOfPiece? text = some (.name text) := by
  rw [Path.componentOfPiece?, if_neg fun hsilent => hsilent.elim h.nonempty h.notCurrent,
    if_neg h.notParent]

theorem IsName.isAbsolute {text : String} (h : IsName text) : Path.isAbsolute ⟨text⟩ = false := by
  rw [Path.isAbsolute, beq_eq_false_iff_ne]
  exact fun hhead => h.noSeparator (List.mem_of_mem_head? hhead)

theorem annotate_append_name {name : String} (h : IsName name) (pieces : List String) :
    ∃ front, annotate (pieces ++ [name]) = front ++ [(name, some (.name name))] := by
  cases pieces with
  -- also as the first piece a name is a name
  | nil =>
    refine ⟨[], ?_⟩
    rw [List.nil_append, annotate, if_neg h.notCurrent, h.componentOfPiece?, List.nil_append]
  | cons first pieces =>
    rw [List.cons_append, annotate]
    · rw [List.map_append, List.map_singleton, h.componentOfPiece?, ← List.cons_append]
      exact ⟨_, rfl⟩
    · exact fun hnil => List.append_ne_nil_of_right_ne_nil pieces (List.cons_ne_nil _ _) hnil

theorem fileName?_of_pieces {p : Path} {name : String} (h : IsName name) {pieces : List String}
    (hpieces : p.pieces = pieces ++ [name]) : p.fileName? = some name := by
  obtain ⟨front, hfront⟩ := annotate_append_name h pieces
  have hcomponents : p.components = front.filterMap (·.2) ++ [.name name] := by
    rw [components, hpieces, hfront, List.filterMap_append]
    rfl
  rw [fileName?, hcomponents, List.getLast?_concat]

theorem split_append_name {name : String} (h : IsName name) (text : String) :
    Text.split '/' (text ++ "/" ++ name) = Text.split '/' text ++ [name] := by
  have htext : (text ++ "/" ++ name).toList = text.toList ++ '/' :: name.toList := by
    rw [String.toList_append, String.toList_append, List.append_assoc]
    rfl
  rw [Text.split, htext, Text.splitChars_append_separator, Text.splitChars_of_not_mem h.noSeparator,
    List.map_append, List.map_singleton, String.ofList_toList, Text.split]

-- only the empty text is one empty piece
theorem text_eq_empty_of_pieces {p : Path} (h : p.pieces = [""]) : p.text = "" := by
  have hchars : Text.splitChars '/' p.text.toList = [[]] := by
    obtain ⟨piece, hsplit, hpiece⟩ := List.map_eq_singleton_iff.1 h
    rw [hsplit, ← String.toList_ofList (l := piece), hpiece]
    rfl
  rw [← String.toList_inj]
  cases htext : p.text.toList with
  | nil => rfl
  | cons c rest =>
    rw [htext, Text.splitChars] at hchars
    split at hchars
    · exact absurd (List.cons.inj hchars).2 (Text.splitChars_ne_nil '/' rest)
    · split at hchars
      · cases hchars
      · cases hchars

/-- A name below a folder follows the pieces of the folder, in place of the empty piece at its end
when there is one. -/
theorem pieces_join_name {name : String} (h : IsName name) (folder : Path) :
    ∃ front, (folder.join ⟨name⟩).pieces = front ++ [name] ∧
      (folder.pieces = front ∧ folder.text ≠ "" ∨ folder.pieces = front ++ [""]) := by
  rw [join, if_neg (by rw [h.isAbsolute]; exact Bool.false_ne_true)]
  by_cases hempty : folder.text = ""
  · refine ⟨[], ?_, .inr ?_⟩
    · rw [if_pos (by rw [hempty]; rfl), pieces, hempty, String.empty_append, Text.split,
        Text.splitChars_of_not_mem h.noSeparator, List.map_singleton, String.ofList_toList,
        List.nil_append]
    · rw [pieces, hempty]
      rfl
  · by_cases hend : folder.text.toList.getLast? = some '/'
    -- the folder brings its separator along
    · obtain ⟨front, hfront⟩ := List.getLast?_eq_some_iff.1 hend
      have htext : folder.text = String.ofList front ++ "/" := by
        rw [← String.toList_inj, hfront, String.toList_append, String.toList_ofList]
        rfl
      refine ⟨Text.split '/' (String.ofList front), ?_, .inr ?_⟩
      · rw [if_pos (by rw [hend, beq_self_eq_true, Bool.or_true]), pieces, htext,
          split_append_name h]
      · rw [pieces, Text.split, hfront, Text.splitChars_append_separator, List.map_append,
          Text.split, String.toList_ofList]
        rfl
    · refine ⟨folder.pieces, ?_, .inl ⟨rfl, hempty⟩⟩
      rw [if_neg, pieces, split_append_name h, pieces]
      rw [Bool.or_eq_true, beq_iff_eq, String.isEmpty_iff]
      exact not_or.2 ⟨hempty, hend⟩

theorem isAbsolute_join_name {name : String} (h : IsName name) (folder : Path) :
    (folder.join ⟨name⟩).isAbsolute = folder.isAbsolute := by
  rw [join, if_neg (by rw [h.isAbsolute]; exact Bool.false_ne_true)]
  by_cases hempty : folder.text = ""
  · rw [if_pos (by rw [hempty]; rfl), hempty, String.empty_append, h.isAbsolute, isAbsolute, hempty]
    rfl
  -- the first character of the folder stays the first one
  · have hne : folder.text.toList ≠ [] := fun hnil => hempty (String.toList_eq_nil_iff.1 hnil)
    split
    · rw [isAbsolute, isAbsolute, String.toList_append, List.head?_append_of_ne_nil _ hne]
    · rw [isAbsolute, isAbsolute, String.toList_append, String.toList_append,
        List.append_assoc, List.head?_append_of_ne_nil _ hne]

/-- The first piece of several has a meaning of its own, the others have one wherever they stand. -/
theorem annotate_cons (first : String) {pieces : List String} (h : pieces ≠ []) :
    annotate (first :: pieces) =
      (first, if first = "" then some .root else if first = "." then some .current
          else componentOfPiece? first) ::
        pieces.map fun piece => (piece, componentOfPiece? piece) := by
  cases pieces with
  | nil => exact absurd rfl h
  | cons second pieces => rfl

theorem components_join_name {name : String} (h : IsName name) (folder : Path) :
    (folder.join ⟨name⟩).components = folder.components ++ [.name name] := by
  obtain ⟨front, hpieces, hfolder⟩ := pieces_join_name h folder
  rw [components, hpieces, components]
  cases front with
  | nil =>
    have hnone : (annotate folder.pieces).filterMap (·.2) = [] := by
      rcases hfolder with ⟨hfolder, -⟩ | hfolder <;> rw [hfolder] <;> rfl
    rw [hnone, List.nil_append, annotate, if_neg h.notCurrent, h.componentOfPiece?]
    rfl
  | cons first front =>
    rw [List.cons_append, annotate_cons first (List.append_ne_nil_of_right_ne_nil front
      (List.cons_ne_nil name [])), List.map_append, List.map_singleton, h.componentOfPiece?]
    rcases hfolder with ⟨hfolder, hnonempty⟩ | hfolder
    · cases front with
      | nil =>
        -- a first piece without others behind it is not the root
        have hfirst : first ≠ "" := fun hempty =>
          hnonempty (text_eq_empty_of_pieces (hempty ▸ hfolder))
        rw [hfolder, annotate, if_neg hfirst, List.map_nil, List.nil_append,
          ← List.singleton_append, List.filterMap_append]
        rfl
      | cons second front =>
        rw [hfolder, annotate_cons first (List.cons_ne_nil second front), ← List.cons_append,
          List.filterMap_append]
        rfl
    -- the empty piece at the end stands for nothing
    · rw [hfolder, List.cons_append, annotate_cons first (List.append_ne_nil_of_right_ne_nil front
        (List.cons_ne_nil "" [])), List.map_append, ← List.cons_append, ← List.cons_append,
        List.filterMap_append, List.filterMap_append, List.append_assoc]
      rfl

theorem fileName?_join_name {name : String} (h : IsName name) (folder : Path) :
    (folder.join ⟨name⟩).fileName? = some name := by
  obtain ⟨pieces, hpieces, -⟩ := pieces_join_name h folder
  exact fileName?_of_pieces h hpieces

/-- Below one folder, two names make the same path only if they are the same. -/
theorem sameAs_join_name_iff {name other : String} (h : IsName name) (h' : IsName other)
    (folder : Path) : (folder.join ⟨name⟩).sameAs (folder.join ⟨other⟩) = true ↔ name = other := by
  rw [sameAs_iff]
  constructor
  · intro hcomponents
    have hname : (folder.join ⟨name⟩).fileName? = (folder.join ⟨other⟩).fileName? := by
      rw [fileName?, fileName?, hcomponents]
    rw [fileName?_join_name h, fileName?_join_name h'] at hname
    exact Option.some.inj hname
  · rintro rfl
    rfl

/-! ## 2. Names one below the other -/

def withNames (folder : Path) (names : List String) : Path :=
  names.foldl (fun p name => p.join ⟨name⟩) folder

theorem pieces_withNames {names : List String} (h : ∀ name ∈ names, IsName name) (hne : names ≠ [])
    (folder : Path) : ∃ front, (folder.withNames names).pieces = front ++ names ∧
      (folder.pieces = front ∨ folder.pieces = front ++ [""]) := by
  induction names generalizing folder with
  | nil => exact absurd rfl hne
  | cons name names ih =>
    obtain ⟨hname, hrest⟩ := List.forall_mem_cons.1 h
    obtain ⟨front, hpieces, hfolder⟩ := pieces_join_name hname folder
    by_cases hnil : names = []
    · subst hnil
      exact ⟨front, hpieces, hfolder.imp_left And.left⟩
    · obtain ⟨between, hbelow, hbetween⟩ := ih hrest hnil (folder.join ⟨name⟩)
      refine ⟨front, ?_, hfolder.imp_left And.left⟩
      rw [hpieces] at hbetween
      -- the folder between ends in its name, and not in a separator
      rcases hbetween with hbetween | hbetween
      · show ((folder.join ⟨name⟩).withNames names).pieces = _
        rw [hbelow, ← hbetween, List.append_assoc, List.singleton_append]
      · have hempty := (List.append_inj' hbetween rfl).2
        exact absurd (List.singleton_inj.1 hempty) hname.nonempty

theorem isAbsolute_withNames {names : List String} (h : ∀ name ∈ names, IsName name)
    (folder : Path) : (folder.withNames names).isAbsolute = folder.isAbsolute := by
  induction names generalizing folder with
  | nil => rfl
  | cons name names ih =>
    obtain ⟨hname, hrest⟩ := List.forall_mem_cons.1 h
    rw [← isAbsolute_join_name hname folder]
    exact ih hrest (folder.join ⟨name⟩)

theorem components_withNames {names : List String} (h : ∀ name ∈ names, IsName name)
    (folder : Path) :
    (folder.withNames names).components = folder.components ++ names.map Component.name := by
  induction names generalizing folder with
  | nil => exact (List.append_nil _).symm
  | cons name names ih =>
    obtain ⟨hname, hrest⟩ := List.forall_mem_cons.1 h
    rw [List.map_cons, List.append_cons, ← components_join_name hname folder]
    exact ih hrest (folder.join ⟨name⟩)

/-! ## 3. Stems -/

theorem eq_of_componentOfPiece? {piece text : String}
    (h : componentOfPiece? piece = some (.name text)) : piece = text := by
  rw [componentOfPiece?] at h
  split at h
  · cases h
  · split at h
    · cases h
    · exact Component.name.inj (Option.some.inj h)

theorem mem_of_mem_annotate {pieces : List String} {piece text : String}
    (h : (piece, some (.name text)) ∈ annotate pieces) : text ∈ pieces := by
  match pieces with
  | [] => cases h
  | [first] =>
    obtain ⟨rfl, hcomponent⟩ := Prod.mk.inj (List.mem_singleton.1 h)
    split at hcomponent
    · cases hcomponent
    · exact eq_of_componentOfPiece? hcomponent.symm ▸ List.mem_singleton_self _
  | first :: second :: rest =>
    rcases List.mem_cons.1 h with hfirst | hrest
    · obtain ⟨rfl, hcomponent⟩ := Prod.mk.inj hfirst
      split at hcomponent
      · cases hcomponent
      · split at hcomponent
        · cases hcomponent
        · exact eq_of_componentOfPiece? hcomponent.symm ▸ List.mem_cons_self
    · obtain ⟨other, hother, heq⟩ := List.mem_map.1 hrest
      obtain ⟨rfl, hcomponent⟩ := Prod.mk.inj heq
      exact List.mem_cons_of_mem _ (eq_of_componentOfPiece? hcomponent ▸ hother)

theorem mem_pieces_of_fileName? {p : Path} {name : String} (h : p.fileName? = some name) :
    name ∈ p.pieces := by
  rw [fileName?] at h
  split at h
  · next text hlast =>
    obtain rfl := Option.some.inj h
    obtain ⟨⟨piece, component⟩, hmem, hcomponent⟩ := List.mem_filterMap.1
      (List.mem_of_getLast? hlast)
    obtain rfl : component = some (.name text) := hcomponent
    exact mem_of_mem_annotate hmem
  · cases h

theorem separator_not_mem_fileName? {p : Path} {name : String} (h : p.fileName? = some name) :
    '/' ∉ name.toList := by
  obtain ⟨chars, hchars, rfl⟩ := List.mem_map.1 (mem_pieces_of_fileName? h)
  rw [String.toList_ofList]
  exact Text.not_mem_of_mem_splitChars hchars

theorem sublist_stem (name : String) : (splitExtension name).1.toList.Sublist name.toList := by
  rw [splitExtension]
  split
  · exact .refl _
  · exact .refl _
  · next _ dot stem _ hstem =>
    have hdrop : stem.Sublist name.toList.reverse :=
      (List.sublist_cons_self dot stem).trans (hstem ▸ List.drop_sublist _ _)
    rw [String.toList_ofList, ← List.reverse_reverse name.toList]
    exact hdrop.reverse

theorem separator_not_mem_fileStem (p : Path) : '/' ∉ p.fileStem.toList := by
  intro h
  rw [fileStem] at h
  cases hname : p.fileName? with
  | none =>
    rw [hname] at h
    cases h
  | some name =>
    rw [hname] at h
    exact separator_not_mem_fileName? hname ((sublist_stem name).mem h)

end BuildSteps.Path
