import Mathlib.Order.Lattice
import BuildSteps.Proofs.Path.Ancestor

/-!
# Routes

A path can be written in many ways. What they all have in common are the components: paths with the
same components are one route. Routes are ordered by what they start with, and any two of them have
a meet, the route of the common ancestor of their paths.
-/

namespace BuildSteps.Path

/-! ## 1. Shared components -/

/-- Two lists start with the same components just as far as with those they share. -/
theorem isPrefix_shared_iff {front components others : List Component} :
    front <+: shared components others ↔ front <+: components ∧ front <+: others := by
  fun_induction shared components others generalizing front with
  | case1 components c others ih =>
    cases front with
    | nil => simp
    | cons d front =>
      rw [List.cons_prefix_cons, List.cons_prefix_cons, List.cons_prefix_cons, ih]
      tauto
  | case2 c components d others hne =>
    cases front with
    | nil => simp
    | cons e front =>
      rw [List.cons_prefix_cons, List.cons_prefix_cons, List.prefix_nil]
      refine ⟨fun hnil => absurd hnil (List.cons_ne_nil e front), fun hboth => ?_⟩
      exact absurd (hboth.1.1.symm.trans hboth.2.1) hne
  | case3 components others hends =>
    -- one of the two lists is empty
    cases components with
    | nil => simpa using fun h => h ▸ List.nil_prefix
    | cons c components =>
      cases others with
      | nil => simpa using fun h => h ▸ List.nil_prefix
      | cons d others => exact absurd rfl (hends c components d others rfl)

theorem isPrefix_commonAncestor_iff {p q : Path} {front : List Component} :
    front <+: (p.commonAncestor q).components ↔
      front <+: p.components ∧ front <+: q.components := by
  rw [components_commonAncestor, isPrefix_shared_iff]

/-- How two paths are written has no influence on how their common ancestor is written. -/
theorem commonAncestor_congr {p p' q q' : Path} (hp : p.sameAs p' = true) (hq : q.sameAs q' = true) :
    p.commonAncestor q = p'.commonAncestor q' := by
  rw [commonAncestor, commonAncestor, sameAs_iff.1 hp, sameAs_iff.1 hq]

/-! ## 2. The order of routes -/

instance setoid : Setoid Path where
  r p q := p.sameAs q = true
  iseqv := by
    simp only [sameAs_iff]
    exact ⟨fun _ => rfl, Eq.symm, Eq.trans⟩

/-- A path, whichever way it is written. -/
def Route : Type := Quotient setoid

namespace Route

def of (p : Path) : Route := Quotient.mk setoid p

def components : Route → List Component :=
  Quotient.lift Path.components fun _ _ h => sameAs_iff.1 h

variable {p q : Path}

theorem of_eq_of_iff : of p = of q ↔ p.sameAs q = true := Quotient.eq

theorem components_injective : Function.Injective components := by
  rintro ⟨p⟩ ⟨q⟩ h
  exact of_eq_of_iff.2 (sameAs_iff.2 h)

/-- A route is below those that start with all its components. -/
instance : PartialOrder Route where
  le r s := r.components <+: s.components
  le_refl _ := List.prefix_rfl
  le_trans _ _ _ := List.IsPrefix.trans
  le_antisymm _ _ h h' := components_injective (h.eq_of_length_le h'.length_le)

theorem of_le_of_iff : of p ≤ of q ↔ p.components <+: q.components := Iff.rfl

/-- The meet of two routes has the components that both start with. -/
instance : SemilatticeInf Route where
  inf := Quotient.map₂ commonAncestor fun _ _ hp _ _ hq =>
    of_eq_of_iff.1 (congrArg of (commonAncestor_congr hp hq))
  inf_le_left := by
    rintro ⟨p⟩ ⟨q⟩
    exact (isPrefix_commonAncestor_iff.1 List.prefix_rfl).1
  inf_le_right := by
    rintro ⟨p⟩ ⟨q⟩
    exact (isPrefix_commonAncestor_iff.1 List.prefix_rfl).2
  le_inf := by
    rintro ⟨r⟩ ⟨p⟩ ⟨q⟩ hp hq
    exact isPrefix_commonAncestor_iff.2 ⟨hp, hq⟩

theorem of_commonAncestor (p q : Path) : of (p.commonAncestor q) = of p ⊓ of q := rfl

end Route

/-! ## 3. The common ancestor -/

open Route in
/-- **The common ancestor of two paths is the greatest path that both start with**, in the order of
components. So it does not matter which of two paths is named first, nor which two of three are
taken first, and a path is the common ancestor of itself with itself. All this is up to how a path
is written; the way the two paths are written is lost in their common ancestor. -/
theorem commonAncestor_greatest (p q : Path) :
    ((p.commonAncestor q).components <+: p.components ∧
      (p.commonAncestor q).components <+: q.components ∧
      ∀ r : Path, r.components <+: p.components → r.components <+: q.components →
        r.components <+: (p.commonAncestor q).components) ∧
    (p.commonAncestor q).sameAs (q.commonAncestor p) = true ∧
    (∀ r : Path, ((p.commonAncestor q).commonAncestor r).sameAs
      (p.commonAncestor (q.commonAncestor r)) = true) ∧
    (p.commonAncestor p).sameAs p = true ∧
    ∀ p' q' : Path, p.sameAs p' = true → q.sameAs q' = true →
      p.commonAncestor q = p'.commonAncestor q' := by
  simp only [← of_le_of_iff, ← of_eq_of_iff, of_commonAncestor]
  exact ⟨⟨inf_le_left, inf_le_right, fun _ hp hq => le_inf hp hq⟩, inf_comm _ _,
    fun _ => inf_assoc _ _ _, inf_idem _, fun _ _ hp hq =>
      commonAncestor_congr (of_eq_of_iff.1 hp) (of_eq_of_iff.1 hq)⟩

-- doubled and closing separators and inner dots are lost, a dot in front and `..` are kept
example : commonAncestor ⟨"./../a//b/"⟩ ⟨"./.././a/b/c"⟩ = ⟨"./../a/b"⟩ ∧
    commonAncestor ⟨"/a/./b"⟩ ⟨"//a"⟩ = ⟨"/a"⟩ ∧ commonAncestor ⟨"/a"⟩ ⟨"a"⟩ = ⟨""⟩ := by
  decide +kernel

end BuildSteps.Path
