import Mathlib.Data.List.Chain
import BuildSteps.Proofs.Path.Characters
import BuildSteps.Proofs.Path.Parent

/-!
# Outwards along a path

Taking the last component off a path, again and again, gives the folders that its text names around
it. Each says what the path says but for the end, and the row of them is finite: it ends where
nothing is said any more, at the root or at the empty path.
-/

namespace BuildSteps.Path

variable {p q : Path}

/-! ## 1. One step outwards -/

theorem parent_mem_inner_iff : .parent ∈ p.inner ↔ ".." ∈ p.pieces := by
  refine ⟨fun h => ?_, fun h => List.mem_filterMap.2 ⟨"..", h, rfl⟩⟩
  obtain ⟨piece, hmem, hpiece⟩ := List.mem_filterMap.1 h
  rw [componentOfPiece?] at hpiece
  split at hpiece
  · cases hpiece
  · split at hpiece
    · next hparent => rwa [← hparent]
    · cases hpiece

/-- How many times a component can be taken off a path. -/
def extent (p : Path) : Nat := p.inner.length + if p.text = "" then 0 else 1

structure Encloses (q p : Path) : Prop where
  absolute : q.isAbsolute = p.isAbsolute
  said : ∃ last : Option Component, p.inner = q.inner ++ last.toList
  smaller : q.extent < p.extent

theorem inner_of_parent?_eq_none (h : p.parent? = none) : p.inner = [] := by
  have hshortened := p.shortened
  rw [h] at hshortened
  cases hshortened with
  | nothing said => exact said

theorem extent_le (p : Path) : p.extent ≤ p.inner.length + 1 := by
  rw [extent]
  split <;> omega

theorem extent_of_text_ne (h : p.text ≠ "") : p.extent = p.inner.length + 1 := by
  rw [extent, if_neg h]

theorem encloses_of_parent? (h : p.parent? = some q) : q.Encloses p := by
  have hshortened := p.shortened
  rw [h] at hshortened
  have hlength (last : Component) (said : p.inner = q.inner ++ [last]) (written : p.text ≠ "") :
      q.extent < p.extent := by
    have hq := q.extent_le
    rw [extent_of_text_ne written, said, List.length_append, List.length_singleton]
    omega
  cases hshortened with
  | empty last said relative written =>
    refine ⟨relative.symm, ⟨last, said⟩, ?_⟩
    rw [extent_of_text_ne written]
    exact Nat.succ_pos _
  | root last said absolute =>
    exact ⟨absolute.symm, ⟨some last, said⟩,
      hlength last said (text_ne_empty_of_isAbsolute absolute)⟩
  | folder _ last said absolute rest written =>
    refine ⟨absolute, ⟨some last, said⟩, hlength last said fun hempty => ?_⟩
    rw [hempty] at written
    have hsize := congrArg String.utf8ByteSize written
    rw [String.utf8ByteSize_append, String.utf8ByteSize_append] at hsize
    exact absurd hsize.symm (Nat.ne_of_gt (Nat.add_pos_left (Nat.add_pos_right _ (by decide)) _))

/-- A name in the folder around a path is written with less than the same name in the path. -/
theorem utf8ByteSize_join_le {name : String} (hname : IsName name) (h : p.parent? = some q) :
    (q.join ⟨name⟩).text.utf8ByteSize ≤ (p.join ⟨name⟩).text.utf8ByteSize := by
  have hshortened := p.shortened
  rw [h] at hshortened
  have hinside (text : String) (hp : text.utf8ByteSize ≤ p.text.utf8ByteSize) :
      text.utf8ByteSize + name.utf8ByteSize ≤ (p.join ⟨name⟩).text.utf8ByteSize := by
    obtain ⟨separator, -, htext⟩ := text_join (p := p) hname.isAbsolute
    rw [htext, String.utf8ByteSize_append, String.utf8ByteSize_append]
    exact Nat.add_le_add_right (le_trans hp (Nat.le_add_right _ _)) _
  cases hshortened with
  | empty last said relative written =>
    rw [empty_join]
    have hp := hinside "" (Nat.zero_le _)
    rwa [String.utf8ByteSize_empty, Nat.zero_add] at hp
  | root last said absolute =>
    have hp := hinside "/" ?_
    · rw [← String.utf8ByteSize_append] at hp
      have hjoin : join ⟨"/"⟩ ⟨name⟩ = ⟨"/" ++ name⟩ := by
        rw [join, if_neg (by rw [hname.isAbsolute]; exact Bool.false_ne_true), if_pos (by decide)]
      rwa [hjoin]
    · exact Nat.pos_of_ne_zero fun hzero =>
        text_ne_empty_of_isAbsolute absolute (String.utf8ByteSize_eq_zero_iff.1 hzero)
  | folder _ last said absolute rest written =>
    have hp := hinside (q.text ++ "/") (by
      rw [written, @String.utf8ByteSize_append (q.text ++ "/")]
      exact Nat.le_add_right _ _)
    obtain ⟨separator, hseparator, htext⟩ := text_join (p := q) hname.isAbsolute
    refine le_trans ?_ hp
    rw [htext, String.utf8ByteSize_append, String.utf8ByteSize_append, String.utf8ByteSize_append]
    rcases hseparator with rfl | rfl
    · exact Nat.add_le_add_right (Nat.le_add_right _ _) _
    · exact le_rfl

/-! ## 2. All steps outwards -/

def selfAndParents (p : Path) : List Path :=
  match _h : p.parent? with
  | none => [p]
  | some q => p :: q.selfAndParents
termination_by p.extent
decreasing_by exact (encloses_of_parent? _h).smaller

theorem selfAndParents_of_none (h : p.parent? = none) : p.selfAndParents = [p] := by
  rw [selfAndParents]
  split
  · rfl
  · next q hq => rw [h] at hq; cases hq

theorem selfAndParents_of_some (h : p.parent? = some q) :
    p.selfAndParents = p :: q.selfAndParents := by
  rw [selfAndParents]
  split
  · next hnone => rw [h] at hnone; cases hnone
  · next r hr =>
    rw [h] at hr
    rw [Option.some.inj hr]

theorem head?_selfAndParents (p : Path) : p.selfAndParents.head? = some p := by
  rw [selfAndParents]
  split <;> rfl

theorem self_mem_selfAndParents (p : Path) : p ∈ p.selfAndParents :=
  List.mem_of_head? p.head?_selfAndParents

/-- What one step outwards preserves holds of all folders around a path. -/
theorem selfAndParents_induction {P : Path → Prop}
    (step : ∀ p q : Path, p.parent? = some q → P p → P q) (hp : P p) :
    ∀ folder ∈ p.selfAndParents, P folder := by
  fun_induction selfAndParents p with
  | case1 p hnone =>
    intro folder hfolder
    rw [List.mem_singleton.1 hfolder]
    exact hp
  | case2 p q hq ih =>
    intro folder hfolder
    rcases List.mem_cons.1 hfolder with rfl | hfolder
    · exact hp
    · exact ih (step p q hq hp) folder hfolder

theorem isChain_selfAndParents (p : Path) :
    p.selfAndParents.IsChain fun p q => q.Encloses p := by
  fun_induction selfAndParents p with
  | case1 p hnone => exact .singleton p
  | case2 p q hq ih =>
    refine ih.cons fun r hr => ?_
    rw [head?_selfAndParents, Option.mem_some_iff] at hr
    exact hr ▸ encloses_of_parent? hq

/-- A folder around a path says what the path starts with. -/
theorem inner_of_mem_selfAndParents :
    ∀ folder ∈ p.selfAndParents, folder.isAbsolute = p.isAbsolute ∧ folder.inner <+: p.inner :=
  selfAndParents_induction (fun q r hr ⟨habsolute, hinner⟩ => by
    have hencloses := encloses_of_parent? hr
    obtain ⟨last, hsaid⟩ := hencloses.said
    exact ⟨hencloses.absolute.trans habsolute, (List.prefix_append _ _).trans (hsaid ▸ hinner)⟩)
    ⟨rfl, List.prefix_rfl⟩

/-- The outermost folder says nothing. -/
theorem exists_silent_selfAndParents (p : Path) :
    ∃ folder ∈ p.selfAndParents, folder.inner = [] := by
  fun_induction selfAndParents p with
  | case1 p hnone => exact ⟨p, List.mem_singleton_self p, inner_of_parent?_eq_none hnone⟩
  | case2 p q hq ih =>
    obtain ⟨folder, hfolder, hsilent⟩ := ih
    exact ⟨folder, List.mem_cons_of_mem p hfolder, hsilent⟩

end BuildSteps.Path
