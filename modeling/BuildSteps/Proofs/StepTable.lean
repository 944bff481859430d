import Mathlib.Data.List.Basic
import BuildSteps.Tool.Collection

/-!
# What step tables list

A table is read as a relation between targets and positions, in which the order and the repeats do
not count, or target by target, in which they do.
-/

namespace BuildSteps.StepTable

def IsFilled (table : StepTable) : Prop := ∀ entry ∈ table.entries, entry.steps ≠ []

theorem isFilled_empty : empty.IsFilled := fun _ hmem => absurd hmem List.not_mem_nil

theorem IsFilled.push {table : StepTable} (h : table.IsFilled) (target : Target) (index : Nat) :
    (table.push target index).IsFilled := by
  have hall : ∀ entries : List Entry, (∀ entry ∈ entries, entry.steps ≠ []) →
      ∀ entry ∈ alterEntries target (· ++ [index]) entries, entry.steps ≠ [] := by
    intro entries hentries
    induction entries with
    | nil => simp [alterEntries]
    | cons first entries ih =>
      obtain ⟨hfirst, hrest⟩ := List.forall_mem_cons.1 hentries
      rw [alterEntries]
      split
      · exact List.forall_mem_cons.2 ⟨by simp, hrest⟩
      · exact List.forall_mem_cons.2 ⟨hfirst, ih hrest⟩
  exact hall table.entries h

def lists (table : StepTable) (target : Target) (index : Nat) : Bool :=
  table.entries.any fun entry => entry.target = target && entry.steps.contains index

theorem lists_iff {table : StepTable} {target : Target} {index : Nat} :
    table.lists target index = true ↔
      ∃ entry ∈ table.entries, entry.target = target ∧ index ∈ entry.steps := by
  simp only [lists, List.any_eq_true, Bool.and_eq_true, decide_eq_true_eq, List.contains_iff_mem]

@[simp] theorem lists_empty (target : Target) (index : Nat) : empty.lists target index = false := rfl

theorem lists_push {table : StepTable} {target target' : Target} {index index' : Nat} :
    (table.push target index).lists target' index' = true ↔
      table.lists target' index' = true ∨ target = target' ∧ index' = index := by
  obtain ⟨entries⟩ := table
  unfold push lists
  induction entries with
  | nil => simp [alterEntries]
  | cons entry entries ih =>
    rw [alterEntries]
    -- the entry that gets the position, or one in front of it
    by_cases htarget : entry.target = target
    · simp only [htarget, if_true, List.any_cons, Bool.or_eq_true, Bool.and_eq_true,
        decide_eq_true_eq, List.contains_iff_mem, List.mem_append, List.mem_singleton]
      tauto
    · rw [if_neg htarget, List.any_cons, List.any_cons, Bool.or_eq_true, Bool.or_eq_true, ih,
        or_assoc]

theorem exists_lists_iff {table : StepTable} (h : table.IsFilled) {target : Target} :
    (∃ index, table.lists target index = true) ↔ ∃ entry ∈ table.entries, entry.target = target := by
  simp only [lists_iff]
  constructor
  · rintro ⟨_, entry, hentry, htarget, -⟩
    exact ⟨entry, hentry, htarget⟩
  · rintro ⟨entry, hentry, htarget⟩
    obtain ⟨index, hindex⟩ := List.exists_mem_of_ne_nil _ (h entry hentry)
    exact ⟨index, entry, hentry, htarget, hindex⟩

@[simp] theorem get?_empty (target : Target) : empty.get? target = none := rfl

theorem get?_push (table : StepTable) (target target' : Target) (index : Nat) :
    (table.push target index).get? target' =
      if target = target' then some ((table.get? target').getD [] ++ [index])
      else table.get? target' := by
  obtain ⟨entries⟩ := table
  unfold push get?
  induction entries with
  | nil =>
    rw [alterEntries, List.find?_singleton]
    by_cases heq : target = target' <;> simp [heq]
  | cons entry entries ih =>
    rw [alterEntries]
    -- the entry that gets the position, or one in front of it
    by_cases htarget : entry.target = target
    · rw [if_pos htarget, List.find?_cons, List.find?_cons, htarget]
      by_cases heq : target = target' <;> simp [heq]
    · rw [if_neg htarget, List.find?_cons, List.find?_cons]
      by_cases heq : entry.target = target'
      · have hne : target ≠ target' := fun h => htarget (heq.trans h.symm)
        simp [heq, hne]
      · rw [decide_eq_false heq]
        exact ih

end BuildSteps.StepTable
