import Mathlib.Data.List.Forall2

/-!
# Lists that go together

What holds of the elements of two lists, each with its partner, holds of lists made from them.
-/

namespace List.Forall₂

variable {α β γ δ : Type} {as : List α} {bs : List β} {cs : List γ}

theorem comp {R : α → β → Prop} {S : β → γ → Prop} {T : α → γ → Prop} (h : Forall₂ R as bs)
    (h' : Forall₂ S bs cs) (hcomp : ∀ a b c, R a b → S b c → T a c) : Forall₂ T as cs := by
  induction h generalizing cs with
  | nil =>
    cases h'
    exact .nil
  | cons hab _ ih =>
    cases h' with
    | cons hbc hrest => exact .cons (hcomp _ _ _ hab hbc) (ih hrest)

theorem exists_between {R : α → γ → Prop} {S : γ → β → Prop}
    (h : Forall₂ (fun a b => ∃ c, R a c ∧ S c b) as bs) :
    ∃ cs, Forall₂ R as cs ∧ Forall₂ S cs bs := by
  induction h with
  | nil => exact ⟨[], .nil, .nil⟩
  | cons hfirst _ ih =>
    obtain ⟨c, hR, hS⟩ := hfirst
    obtain ⟨cs, hRs, hSs⟩ := ih
    exact ⟨c :: cs, .cons hR hRs, .cons hS hSs⟩

theorem exists_of_mem {R : α → β → Prop} (h : Forall₂ R as bs) {a : α} (ha : a ∈ as) :
    ∃ b ∈ bs, R a b := by
  induction h with
  | nil => cases ha
  | cons hab _ ih =>
    rcases List.mem_cons.1 ha with rfl | hmem
    · exact ⟨_, List.mem_cons_self, hab⟩
    · obtain ⟨b, hb, hR⟩ := ih hmem
      exact ⟨b, List.mem_cons_of_mem _ hb, hR⟩

theorem of_getElem? {R : α → β → Prop} (h : Forall₂ R as bs) {i : Nat} {a : α} {b : β}
    (ha : as[i]? = some a) (hb : bs[i]? = some b) : R a b := by
  obtain ⟨hi, rfl⟩ := List.getElem?_eq_some_iff.1 ha
  obtain ⟨hi', rfl⟩ := List.getElem?_eq_some_iff.1 hb
  exact (List.forall₂_iff_get.1 h).2 i hi hi'

theorem exists_of_getElem? {R : α → β → Prop} (h : Forall₂ R as bs) {i : Nat} {a : α}
    (ha : as[i]? = some a) : ∃ b, bs[i]? = some b ∧ R a b := by
  have hi : i < bs.length := h.length_eq ▸ (List.getElem?_eq_some_iff.1 ha).1
  have hb : bs[i]? = some bs[i] := List.getElem?_eq_getElem hi
  exact ⟨bs[i], hb, h.of_getElem? ha hb⟩

theorem of_forall_getElem? {R : α → β → Prop} (hlength : bs.length = as.length)
    (h : ∀ (i : Nat) (a : α), as[i]? = some a → ∃ b, bs[i]? = some b ∧ R a b) :
    Forall₂ R as bs := by
  refine List.forall₂_iff_get.2 ⟨hlength.symm, fun i hi hi' => ?_⟩
  obtain ⟨b, hb, hR⟩ := h i as[i] (List.getElem?_eq_getElem hi)
  rw [List.getElem?_eq_getElem hi'] at hb
  rw [List.get_eq_getElem, List.get_eq_getElem, Option.some.inj hb]
  exact hR

theorem map_eq {f : α → δ} {g : β → δ} (h : Forall₂ (fun a b => f a = g b) as bs) :
    as.map f = bs.map g := by
  induction h with
  | nil => rfl
  | cons hab _ ih => rw [List.map_cons, List.map_cons, hab, ih]

theorem zipWith_eq {f : α → β → δ} {g : α → δ} (h : Forall₂ (fun a b => f a b = g a) as bs) :
    List.zipWith f as bs = as.map g := by
  induction h with
  | nil => rfl
  | cons hab _ ih => rw [List.zipWith_cons_cons, List.map_cons, hab, ih]

end List.Forall₂
