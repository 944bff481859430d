import Mathlib.Data.List.Basic
import Mathlib.Data.List.Induction
import Mathlib.Data.List.Nodup
import BuildSteps.Path

/-!
# First occurrences

A list without its repeats: of the elements with one key the first stays, and those that stay keep
their order.
-/

namespace List

variable {α β : Type} [DecidableEq β] {key : α → β} {given kept : List α}

/-- `kept` are the first occurrences in `given` of the keys. -/
structure FirstsBy (key : α → β) (given kept : List α) : Prop where
  covers : ∀ a ∈ given, ∃ b ∈ kept, key b = key a
  distinct : (kept.map key).Nodup
  first : ∀ b ∈ kept, given.find? (fun a => key a = key b) = some b
  ordered : kept.Pairwise fun a b =>
    (given.map key).idxOf (key a) < (given.map key).idxOf (key b)

namespace FirstsBy

theorem nil : FirstsBy key [] [] :=
  ⟨fun _ h => absurd h not_mem_nil, nodup_nil, fun _ h => absurd h not_mem_nil, .nil⟩

theorem mem (h : FirstsBy key given kept) {b : α} (hb : b ∈ kept) : b ∈ given :=
  mem_of_find?_eq_some (h.first b hb)

theorem eq_nil_iff (h : FirstsBy key given kept) : kept = [] ↔ given = [] := by
  constructor
  · rintro rfl
    refine eq_nil_iff_forall_not_mem.2 fun a ha => ?_
    obtain ⟨b, hb, -⟩ := h.covers a ha
    exact not_mem_nil hb
  · rintro rfl
    exact eq_nil_iff_forall_not_mem.2 fun b hb => not_mem_nil (h.mem hb)

-- a key that is there stays where it was first
theorem idxOf_concat (h : FirstsBy key given kept) {b : α} (hb : b ∈ kept) (a : α) :
    ((given ++ [a]).map key).idxOf (key b) = (given.map key).idxOf (key b) := by
  rw [map_append, idxOf_append_of_mem (mem_map_of_mem (h.mem hb))]

theorem ordered_concat (h : FirstsBy key given kept) (a : α) :
    kept.Pairwise fun b c =>
      ((given ++ [a]).map key).idxOf (key b) < ((given ++ [a]).map key).idxOf (key c) :=
  h.ordered.imp_of_mem fun {b c} hb hc hlt => by rwa [h.idxOf_concat hb, h.idxOf_concat hc]

theorem first_concat (h : FirstsBy key given kept) {b : α} (hb : b ∈ kept) (a : α) :
    (given ++ [a]).find? (fun c => key c = key b) = some b := by
  rw [find?_append, h.first b hb, Option.some_or]

theorem concat_again (h : FirstsBy key given kept) {a : α} (ha : ∃ b ∈ kept, key b = key a) :
    FirstsBy key (given ++ [a]) kept where
  covers := by
    rw [forall_mem_append]
    exact ⟨h.covers, fun c hc => mem_singleton.1 hc ▸ ha⟩
  distinct := h.distinct
  first _ hb := h.first_concat hb a
  ordered := h.ordered_concat a

theorem concat_new (h : FirstsBy key given kept) {a : α} (ha : ¬ ∃ b ∈ kept, key b = key a) :
    FirstsBy key (given ++ [a]) (kept ++ [a]) := by
  -- the key is new to the given elements as well, since all their keys are kept
  have hnew : ∀ c ∈ given, key c ≠ key a := fun c hc hsame => by
    obtain ⟨b, hb, hkey⟩ := h.covers c hc
    exact ha ⟨b, hb, hkey.trans hsame⟩
  have hnot : key a ∉ given.map key := fun hmem => by
    obtain ⟨c, hc, hsame⟩ := mem_map.1 hmem
    exact hnew c hc hsame
  refine ⟨?_, ?_, ?_, ?_⟩
  · rw [forall_mem_append]
    refine ⟨fun c hc => ?_, fun c hc => ⟨a, mem_append_right _ mem_cons_self, ?_⟩⟩
    · obtain ⟨b, hb, hkey⟩ := h.covers c hc
      exact ⟨b, mem_append_left _ hb, hkey⟩
    · rw [mem_singleton.1 hc]
  · rw [map_append, map_singleton, nodup_append]
    refine ⟨h.distinct, nodup_singleton _, fun k hk k' hk' hsame => ?_⟩
    obtain ⟨b, hb, rfl⟩ := mem_map.1 hk
    exact ha ⟨b, hb, hsame.trans (mem_singleton.1 hk')⟩
  · rw [forall_mem_append]
    refine ⟨fun b hb => h.first_concat hb a, fun b hb => ?_⟩
    obtain rfl := mem_singleton.1 hb
    rw [find?_append, find?_eq_none.2 fun c hc => by simpa using hnew c hc]
    simp
  · rw [pairwise_append]
    refine ⟨h.ordered_concat a, pairwise_singleton _ _, fun b hb c hc => ?_⟩
    obtain rfl := mem_singleton.1 hc
    rw [h.idxOf_concat hb, map_append, map_singleton, idxOf_append_of_notMem hnot]
    exact Nat.lt_add_right _ (idxOf_lt_length_of_mem (mem_map_of_mem (h.mem hb)))

/-- What is left when each element is appended unless its key is there. -/
theorem of_foldl {insert : List α → α → List α}
    (hinsert : ∀ kept a, insert kept a = kept ∧ (∃ b ∈ kept, key b = key a) ∨
      insert kept a = kept ++ [a] ∧ ¬ ∃ b ∈ kept, key b = key a) (given : List α) :
    FirstsBy key given (given.foldl insert []) := by
  induction given using List.reverseRecOn with
  | nil => exact nil
  | append_singleton given a ih =>
    rw [foldl_append, foldl_cons, foldl_nil]
    rcases hinsert (given.foldl insert []) a with ⟨heq, hagain⟩ | ⟨heq, hnew⟩
    · rw [heq]
      exact ih.concat_again hagain
    · rw [heq]
      exact ih.concat_new hnew

end FirstsBy

theorem firstsBy_insertAllLast {α : Type} [DecidableEq α] (given : List α) :
    FirstsBy id given ([].insertAllLast given) := by
  refine .of_foldl (fun kept a => ?_) given
  by_cases ha : a ∈ kept
  · exact .inl ⟨if_pos (contains_iff_mem.2 ha), a, ha, rfl⟩
  · refine .inr ⟨if_neg (mt contains_iff_mem.1 ha), ?_⟩
    rintro ⟨b, hb, hsame⟩
    exact ha ((show b = a from hsame) ▸ hb)

end List

namespace BuildSteps

theorem Path.firstsBy_insertAllLast (given : List Path) :
    List.FirstsBy components given (insertAllLast [] given) := by
  refine .of_foldl (fun kept p => ?_) given
  have hisIn : p.isIn kept = true ↔ ∃ q ∈ kept, q.components = p.components := by
    rw [isIn_iff]
    exact exists_congr fun q => and_congr_right fun _ => eq_comm
  by_cases hp : p.isIn kept = true
  · exact .inl ⟨if_pos hp, hisIn.1 hp⟩
  · exact .inr ⟨if_neg hp, mt hisIn.2 hp⟩

end BuildSteps
