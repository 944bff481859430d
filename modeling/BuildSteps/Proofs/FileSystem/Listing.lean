import BuildSteps.Proofs.FileSystem.Creation

/-!
# Walks of folders that have grown

A walk lists files in an order that depends on their names only. When files are added, those that
were listed before are listed again, and in the same order.
-/

namespace BuildSteps.FileSystem

/-! ## 1. The order of names -/

theorem namesBefore_iff_le {names others : List String} :
    namesBefore names others = true ↔ names.le others := by
  induction names generalizing others with
  | nil => exact iff_of_true rfl (List.nil_le others)
  | cons name names ih =>
    cases others with
    | nil => exact iff_of_false Bool.false_ne_true (List.not_le.2 (List.nil_lt_cons name names))
    | cons other others =>
      refine .trans ?_ List.cons_le_cons_iff.symm
      rw [namesBefore]
      by_cases hsame : name = other
      · subst hsame
        rw [if_pos rfl, ih]
        exact ⟨fun h => .inr ⟨rfl, h⟩, fun h => h.elim (absurd · (String.lt_irrefl name)) And.right⟩
      · rw [if_neg hsame, decide_eq_true_iff]
        exact ⟨.inl, fun h => h.elim id fun h => absurd h.1 hsame⟩

theorem pairwise_insertOrdered (names : List String) {others : List (List String)}
    (h : others.Pairwise List.le) : (insertOrdered names others).Pairwise List.le := by
  induction others with
  | nil => exact List.pairwise_singleton _ _
  | cons other others ih =>
    obtain ⟨hfirst, hrest⟩ := List.pairwise_cons.1 h
    rw [insertOrdered]
    split
    · next hbefore =>
      rw [namesBefore_iff_le] at hbefore
      refine List.pairwise_cons.2 ⟨fun more hmore => ?_, h⟩
      rcases List.mem_cons.1 hmore with rfl | hmem
      · exact hbefore
      · exact List.le_trans hbefore (hfirst more hmem)
    · next hbehind =>
      rw [namesBefore_iff_le] at hbehind
      refine List.pairwise_cons.2 ⟨fun more hmore => ?_, ih hrest⟩
      rcases List.mem_cons.1 ((insertOrdered_perm names others).mem_iff.1 hmore) with rfl | hmem
      · exact (List.le_total other more).resolve_right hbehind
      · exact hfirst more hmem

theorem pairwise_filesBelow (fs : FileSystem) (place : Place) :
    (fs.filesBelow place).Pairwise List.le := by
  rw [filesBelow]
  induction fs.entries.filterMap _ with
  | nil => exact .nil
  | cons names others ih => exact pairwise_insertOrdered names ih

/-! ## 2. Files that were there -/

variable {names : String → Prop} {fs fs' : FileSystem}

/-- Where a test hides what is new, the files below a place are the same as before. -/
theorem Extends.filter_filesBelow (h : Extends names fs fs') {shown : List String → Bool}
    (hidden : ∀ front name, names name → shown (front ++ [name]) = false) (place : Place) :
    (fs'.filesBelow place).filter shown = (fs.filesBelow place).filter shown := by
  obtain ⟨added, hentries, hadded⟩ := h.entries
  -- both lists are ordered, so that it is enough to compare them up to order
  refine List.Perm.eq_of_pairwise (fun _ _ _ _ => List.le_antisymm)
    ((fs'.pairwise_filesBelow place).filter shown) ((fs.pairwise_filesBelow place).filter shown) ?_
  refine ((fs'.filesBelow_perm place).filter shown).trans
    (.trans ?_ ((fs.filesBelow_perm place).filter shown).symm)
  rw [hentries, List.filterMap_append, List.filter_append]
  refine .of_eq (List.append_right_eq_self.2 (List.filter_eq_nil_iff.2 fun found hfound => ?_))
  obtain ⟨entry, hentry, hlisted⟩ := List.mem_filterMap.1 hfound
  split at hlisted
  · next htests =>
    obtain rfl := Option.some.inj hlisted
    simp only [Bool.and_eq_true, bne_iff_ne, List.isPrefixOf_iff_prefix] at htests
    obtain ⟨⟨hfile, hprefix⟩, hne⟩ := htests
    rcases hadded entry hentry with hfolder | ⟨-, folder, name, hplace, hname⟩
    · rw [hfolder] at hfile
      cases hfile
    · rw [hplace] at hprefix hne
      obtain ⟨front, rfl⟩ := (List.prefix_concat_iff.1 hprefix).resolve_left (Ne.symm hne)
      rw [hplace, List.append_assoc, List.drop_left, hidden front name hname]
      exact Bool.false_ne_true
  · cases hlisted

/-- Where a test hides what is new, a walk lists the same files as before. -/
theorem Extends.filter_walkFiles (h : Extends names fs fs') {folder : Path}
    (hfolder : fs.isDirectory folder = true) {shown : Path → Bool}
    (hidden : ∀ p name, names name → shown (Path.join p ⟨name⟩) = false) :
    (fs'.walkFiles folder).filter shown = (fs.walkFiles folder).filter shown := by
  obtain ⟨node, hlookup, -⟩ := (Option.any_eq_true _ _).1 hfolder
  rw [lookup?] at hlookup
  split at hlookup
  · next place hfind =>
    rw [walkFiles, walkFiles, hfind, h.grows.find hfind]
    simp only
    rw [List.filter_map, List.filter_map]
    congr 1
    refine h.filter_filesBelow (fun front name hname => ?_) place
    rw [Function.comp_apply, List.foldl_append]
    exact hidden _ name hname
  · cases hlookup

end BuildSteps.FileSystem
