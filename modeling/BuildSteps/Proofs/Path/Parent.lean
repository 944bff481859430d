import BuildSteps.Proofs.Path.Ancestor
import BuildSteps.Proofs.Path.Way

/-!
# Folders of files

A path with a file name leads to the file with this name in the folder that the rest of the path
leads to, whatever dots and separators stand in between. This is so in the text of the path and once
the path is resolved.
-/

namespace BuildSteps.Path

/-! ## 1. The folder of a path -/

theorem dropSilent_suffix (pieces : List String) : dropSilent pieces <:+ pieces := by
  fun_induction dropSilent pieces with
  | case1 => exact List.suffix_rfl
  | case2 piece => exact List.suffix_rfl
  | case3 piece pieces _ _ ih => exact ih.trans (List.suffix_cons _ _)
  | case4 piece pieces _ _ => exact List.suffix_rfl

theorem dropSilent_ne_nil {pieces : List String} (h : pieces ≠ []) : dropSilent pieces ≠ [] := by
  fun_induction dropSilent pieces with
  | case1 => exact absurd rfl h
  | case2 piece => exact List.cons_ne_nil piece []
  | case3 piece pieces hne _ ih => exact ih fun hnil => hne hnil
  | case4 piece pieces _ _ => exact List.cons_ne_nil piece pieces

theorem componentOfPiece?_of_silent {piece : String} (h : piece = "" ∨ piece = ".") :
    componentOfPiece? piece = none := by
  rw [componentOfPiece?, if_pos h]

theorem filterMap_dropSilent (pieces : List String) :
    (dropSilent pieces).filterMap componentOfPiece? = pieces.filterMap componentOfPiece? := by
  fun_induction dropSilent pieces with
  | case1 => rfl
  | case2 piece => rfl
  | case3 piece pieces _ hsilent ih =>
    rw [ih, List.filterMap_cons_none (componentOfPiece?_of_silent hsilent)]
  | case4 piece pieces _ _ => rfl

/-- The last piece of several is left because it stands for something. -/
theorem exists_componentOfPiece?_of_dropSilent {pieces rest : List String} {last : String}
    (h : dropSilent pieces = last :: rest) (hrest : rest ≠ []) :
    ∃ c, componentOfPiece? last = some c := by
  fun_induction dropSilent pieces with
  | case1 => cases h
  | case2 piece => exact absurd (List.cons.inj h).2.symm hrest
  | case3 piece pieces _ _ ih => exact ih h
  | case4 piece pieces _ hother =>
    obtain ⟨rfl, -⟩ := List.cons.inj h
    rw [componentOfPiece?, if_neg hother]
    split
    · exact ⟨_, rfl⟩
    · exact ⟨_, rfl⟩

def inner (p : Path) : List Component := p.pieces.filterMap componentOfPiece?

theorem inner_eq_dropSilent (p : Path) :
    p.inner = (dropSilent p.pieces.reverse).reverse.filterMap componentOfPiece? := by
  rw [List.filterMap_reverse, filterMap_dropSilent, List.filterMap_reverse, List.reverse_reverse,
    inner]

/-- The file name is what the last piece with a meaning stands for. -/
theorem getLast?_of_fileName? {p : Path} {name : String} (h : p.fileName? = some name) :
    p.inner.getLast? = some (.name name) := by
  have hlast : p.components.getLast? = some (.name name) := by
    rw [fileName?] at h
    split at h
    · next text hlast => rw [hlast, Option.some.inj h]
    · cases h
  have hp : p.text ≠ "" := text_ne_empty_of_components fun hnil => by
    rw [hnil] at hlast
    cases hlast
  obtain ⟨first, rest, hpieces⟩ := List.exists_cons_of_ne_nil p.pieces_ne_nil
  rw [components_of_pieces_cons hp hpieces] at hlast
  rw [inner, hpieces, ← List.singleton_append, List.filterMap_append]
  by_cases hrest : rest.filterMap componentOfPiece? = []
  -- a name as the first piece is a name anywhere
  · rw [hrest, List.append_nil] at hlast
    have hfirst : componentOfPiece? first = some (.name name) := by
      rw [componentOfFirst?] at hlast
      split at hlast
      · cases hlast
      · split at hlast
        · cases hlast
        · rw [Option.mem_toList.1 (List.mem_of_getLast? hlast)]
    rw [hrest, List.append_nil, List.filterMap_cons_some hfirst]
    rfl
  · rw [List.getLast?_append_of_ne_nil _ hrest] at hlast ⊢
    exact hlast

theorem isAbsolute_iff_pieces {p : Path} :
    p.isAbsolute = true ↔ ∃ more, more ≠ [] ∧ p.pieces = "" :: more := by
  refine ⟨exists_pieces_of_isAbsolute, fun ⟨more, hmore, hpieces⟩ => ?_⟩
  rw [pieces, Text.split] at hpieces
  rw [isAbsolute, beq_iff_eq]
  cases htext : p.text.toList with
  | nil =>
    rw [htext] at hpieces
    exact absurd (List.cons.inj hpieces).2.symm hmore
  | cons c rest =>
    rw [htext, Text.splitChars] at hpieces
    split at hpieces
    · next hc => rw [List.head?_cons, hc]
    -- otherwise the first piece is not empty
    · have hfirst (chars : List Char) : String.ofList (c :: chars) ≠ "" := fun hempty =>
        List.cons_ne_nil c chars (String.ofList_eq_empty_iff.1 hempty)
      split at hpieces
      · exact absurd (List.cons.inj hpieces).1 (hfirst _)
      · exact absurd (List.cons.inj hpieces).1 (hfirst _)

/-- Pieces in front of others make a path of their own that starts at the root if all of them do. -/
theorem isAbsolute_of_front {p q : Path} {front more : List String} (hfront : front ≠ [])
    (hmore : more ≠ []) (hother : front ≠ [""]) (hp : p.pieces = front ++ more)
    (hq : q.pieces = front) : q.isAbsolute = p.isAbsolute := by
  rw [Bool.eq_iff_iff, isAbsolute_iff_pieces, isAbsolute_iff_pieces, hp, hq]
  constructor
  · rintro ⟨tail, -, htail⟩
    exact ⟨tail ++ more, List.append_ne_nil_of_right_ne_nil tail hmore, by rw [htail]; rfl⟩
  · rintro ⟨tail, -, htail⟩
    obtain ⟨first, rest, rfl⟩ := List.exists_cons_of_ne_nil hfront
    obtain ⟨rfl, -⟩ := List.cons.inj htail
    exact ⟨rest, fun hnil => hother (by rw [hnil]), rfl⟩

/-- What is left of a path when its last component is taken off. -/
inductive Shortened (p : Path) : Option Path → Prop
  | nothing (said : p.inner = []) : Shortened p none
  | empty (last : Option Component) (said : p.inner = last.toList)
      (relative : p.isAbsolute = false) (written : p.text ≠ "") : Shortened p (some ⟨""⟩)
  | root (last : Component) (said : p.inner = [last]) (absolute : p.isAbsolute = true) :
      Shortened p (some ⟨"/"⟩)
  | folder (q : Path) (last : Component) (said : p.inner = q.inner ++ [last])
      (absolute : q.isAbsolute = p.isAbsolute) (rest : String)
      (written : p.text = q.text ++ "/" ++ rest) : Shortened p (some q)

theorem Shortened.of_front {p : Path} {front more : List String} {c : Component}
    (hfront : front ≠ []) (hmore : more ≠ []) (hother : front ≠ [""])
    (hpieces : p.pieces = front ++ more)
    (hinner : p.inner = front.filterMap componentOfPiece? ++ [c]) :
    p.Shortened (some ⟨Text.join "/" front⟩) := by
  have hsplit : pieces ⟨Text.join "/" front⟩ = front :=
    Text.split_join hfront fun piece hpiece =>
      separator_not_mem_piece (p := p) (hpieces ▸ List.mem_append_left more hpiece)
  refine .folder _ c (by rw [hinner, inner, hsplit])
    (isAbsolute_of_front hfront hmore hother hpieces hsplit) (Text.join "/" more) ?_
  rw [← Text.join_append "/" hfront hmore, ← hpieces]
  exact (Text.join_split '/' p.text).symm

/-- In front of the last piece with a meaning there may be others that have none. -/
theorem exists_pieces_of_dropSilent {p : Path} {last : String} {rest : List String}
    (hlast : dropSilent p.pieces.reverse = last :: rest) (hne : rest ≠ []) :
    ∃ more c, more ≠ [] ∧ p.pieces = (dropSilent rest).reverse ++ more ∧
      p.inner = (dropSilent rest).reverse.filterMap componentOfPiece? ++ [c] := by
  obtain ⟨c, hc⟩ := exists_componentOfPiece?_of_dropSilent hlast hne
  obtain ⟨behind, hbehind⟩ := List.reverse_prefix.2 (dropSilent_suffix p.pieces.reverse)
  obtain ⟨silent, hsilent⟩ := List.reverse_prefix.2 (dropSilent_suffix rest)
  refine ⟨silent ++ last :: behind, c,
    List.append_ne_nil_of_right_ne_nil silent (List.cons_ne_nil last behind), ?_, ?_⟩
  · rw [← p.pieces.reverse_reverse, ← hbehind, hlast, List.reverse_cons, ← hsilent]
    simp only [List.append_assoc, List.singleton_append]
  · rw [inner_eq_dropSilent, hlast, List.reverse_cons, List.filterMap_append,
      List.filterMap_reverse, List.filterMap_reverse, filterMap_dropSilent,
      List.filterMap_cons_some hc]
    rfl

theorem shortened (p : Path) : p.Shortened p.parent? := by
  have hsaid := p.inner_eq_dropSilent
  rw [parent?]
  split
  · next hnil =>
    rw [hnil] at hsaid
    exact .nothing hsaid
  · next piece hone =>
    rw [hone] at hsaid
    split
    · next hempty =>
      rw [hempty] at hsaid
      exact .nothing hsaid
    -- the piece is the first one of the path
    · next hpiece =>
      obtain ⟨behind, hbehind⟩ := List.reverse_prefix.2 (dropSilent_suffix p.pieces.reverse)
      rw [List.reverse_reverse, hone] at hbehind
      refine .empty (componentOfPiece? piece) ?_ (Bool.eq_false_iff.2 fun habsolute => ?_) ?_
      · rw [hsaid]
        cases hc : componentOfPiece? piece <;> simp [hc]
      · obtain ⟨more, -, hmore⟩ := exists_pieces_of_isAbsolute habsolute
        rw [hmore] at hbehind
        exact hpiece (List.cons.inj hbehind).1
      · intro hempty
        rw [pieces, hempty] at hbehind
        exact hpiece (List.cons.inj hbehind).1
  · next last rest hrest hlast =>
    have hne : rest ≠ [] := fun hnil => hrest hnil
    obtain ⟨more, c, hmore, hpieces, hinner⟩ := exists_pieces_of_dropSilent hlast hne
    split
    · next hroot =>
      rw [hroot] at hpieces hinner
      exact .root c hinner (isAbsolute_iff_pieces.2 ⟨more, hmore, hpieces⟩)
    · next hother =>
      exact .of_front (mt List.reverse_eq_nil_iff.1 (dropSilent_ne_nil hne)) hmore
        (mt List.reverse_eq_iff.1 hother) hpieces hinner

/-- A path with a file name has a folder, which takes all that the path says but for the name. -/
theorem exists_parent {p : Path} {name : String} (h : p.fileName? = some name) :
    ∃ folder, p.parent? = some folder ∧ folder.isAbsolute = p.isAbsolute ∧
      p.inner = folder.inner ++ [.name name] := by
  have hlast := getLast?_of_fileName? h
  have hshortened := p.shortened
  generalize p.parent? = folder at hshortened
  cases hshortened with
  | nothing said =>
    rw [said] at hlast
    cases hlast
  | empty last said relative written =>
    refine ⟨⟨""⟩, rfl, relative.symm, ?_⟩
    rw [said] at hlast ⊢
    cases last with
    | none => cases hlast
    | some last =>
      obtain rfl : last = .name name := Option.some.inj hlast
      rfl
  | root last said absolute =>
    refine ⟨⟨"/"⟩, rfl, absolute.symm, ?_⟩
    rw [said] at hlast ⊢
    obtain rfl : last = .name name := Option.some.inj hlast
    rfl
  | folder q last said absolute rest written =>
    refine ⟨q, rfl, absolute, ?_⟩
    rw [said, List.getLast?_concat] at hlast
    rw [said, Option.some.inj hlast]

/-! ## 2. Resolved paths -/

section

variable {cwd : Path}

/-- An absolute path starts at the root, another one where the working directory leads to. -/
theorem components_join_of_isAbsolute (hcwd : cwd.isAbsolute = true) (p : Path) :
    (cwd.join p).components = (if p.isAbsolute = true then [.root] else cwd.components) ++
      p.inner := by
  by_cases habsolute : p.isAbsolute = true
  · obtain ⟨pieces, hne, hpieces⟩ := exists_pieces_of_isAbsolute habsolute
    rw [join, if_pos habsolute, if_pos habsolute, components_of_pieces hne hpieces, inner, hpieces,
      List.filterMap_cons_none (componentOfPiece?_of_silent (.inl rfl)), List.singleton_append]
  · rw [if_neg habsolute, components_join (text_ne_empty_of_isAbsolute hcwd)
      (Bool.eq_false_iff.2 habsolute), inner]

/-- Resolving brings no name in. -/
theorem mem_of_mem_resolveNames {components : List Component} {name : String}
    (h : name ∈ resolveNames components) : .name name ∈ components := by
  induction components using List.reverseRecOn with
  | nil => cases h
  | append_singleton components last ih =>
    rw [resolveNames_append] at h
    cases last with
    | name text =>
      rcases List.mem_append.1 h with hmem | htext
      · exact List.mem_append_left _ (ih hmem)
      · rw [List.mem_singleton.1 htext]
        exact List.mem_append_right _ (List.mem_singleton_self _)
    | parent => exact List.mem_append_left _ (ih (List.dropLast_subset _ h))
    | root => exact List.mem_append_left _ (ih h)
    | current => exact List.mem_append_left _ (ih h)

theorem components_resolveFrom (hcwd : cwd.isAbsolute = true) (p : Path) :
    (∀ name ∈ resolveNames (cwd.join p).components, IsName name) ∧
      (p.resolveFrom cwd).components =
        .root :: (resolveNames (cwd.join p).components).map .name := by
  have habsolute := isAbsolute_join hcwd p
  have hnames : ∀ name ∈ resolveNames (cwd.join p).components, IsName name := fun name hname => by
    obtain ⟨inner, hinner, hcomponents⟩ := exists_components_of_isAbsolute habsolute
    have hmem := mem_of_mem_resolveNames hname
    rw [hcomponents] at hmem
    rcases List.mem_cons.1 hmem with hroot | hmem
    · cases hroot
    · cases hinner _ hmem with
      | name h => exact h
  refine ⟨hnames, ?_⟩
  rw [resolveFrom, if_pos habsolute, components_slash_join hnames]

def folderFrom (file workingDirectory : Path) : Path :=
  (file.parent?.getD ⟨""⟩).resolveFrom workingDirectory

theorem components_resolveFrom_file (hcwd : cwd.isAbsolute = true) {file : Path} {name : String}
    (h : file.fileName? = some name) :
    (file.resolveFrom cwd).components = (file.folderFrom cwd).components ++ [.name name] := by
  obtain ⟨folder, hfolder, habsolute, hmeaning⟩ := exists_parent h
  have hjoin : (cwd.join file).components = (cwd.join folder).components ++ [name].map .name := by
    rw [components_join_of_isAbsolute hcwd, components_join_of_isAbsolute hcwd, hmeaning,
      habsolute, List.append_assoc]
    rfl
  rw [folderFrom, hfolder, Option.getD_some, (components_resolveFrom hcwd file).2,
    (components_resolveFrom hcwd folder).2, hjoin, resolveNames_append_names, List.map_append]
  rfl

end

/-! ## 3. Names with an extension -/

theorem eq_of_splitExtension {name extension : String}
    (h : (splitExtension name).2 = some extension) :
    name = (splitExtension name).1 ++ "." ++ extension := by
  have hreversed := List.takeWhile_append_dropWhile (p := (· != '.')) (l := name.toList.reverse)
  have hhead := List.head?_dropWhile_not (· != '.') name.toList.reverse
  have hdrop : name.toList.reverse.drop (name.toList.reverse.takeWhile (· != '.')).length =
      name.toList.reverse.dropWhile (· != '.') := by
    conv_lhs => arg 2; rw [← hreversed]
    rw [List.drop_left]
  unfold splitExtension at h ⊢
  simp only [hdrop] at h ⊢
  split at h
  · cases h
  · cases h
  · next dot stem _ hstem =>
    obtain rfl := Option.some.inj h
    rw [hstem] at hreversed hhead
    obtain rfl : dot = '.' := by simpa using hhead
    rw [← String.toList_inj]
    calc name.toList
        = (name.toList.reverse.takeWhile (· != '.') ++ '.' :: stem).reverse := by
          rw [hreversed, List.reverse_reverse]
      _ = _ := by simp

theorem fileName?_of_extension? {p : Path} {extension : String}
    (h : p.extension? = some extension) : p.fileName? = some (p.fileStem ++ "." ++ extension) := by
  obtain ⟨name, hname, hextension⟩ := Option.bind_eq_some_iff.1 h
  rw [fileStem, hname, Option.map_some, Option.getD_some, ← eq_of_splitExtension hextension]

end BuildSteps.Path
