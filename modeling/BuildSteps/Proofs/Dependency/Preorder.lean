import Mathlib.Data.List.Infix
import Mathlib.Data.List.Nodup

/-!
# Depth-first walks

What a depth-first walk over a graph visits, and in which order, as a relation that no fuel and no
stack of pending nodes enters. A walk visits each node before what is below it, and everything below
it before the next node of the list.
-/

namespace BuildSteps

variable {α : Type} {next : α → Option (List α)}

/-- `Preorder next seen nodes visited`: the walk that starts from `nodes` in turn and passes over
those in `seen` ends with the nodes in `visited`. It has no end when a node has no list of
successors. -/
inductive Preorder (next : α → Option (List α)) : List α → List α → List α → Prop
  | done (seen : List α) : Preorder next seen [] seen
  | again {seen nodes visited : List α} {a : α} :
    a ∈ seen → Preorder next seen nodes visited → Preorder next seen (a :: nodes) visited
  | visit {seen below between nodes visited : List α} {a : α} :
    a ∉ seen → next a = some below → Preorder next (seen ++ [a]) below between →
      Preorder next between nodes visited → Preorder next seen (a :: nodes) visited

/-- Whether a node is one of those in `start` or below one that can be reached from them. -/
inductive Reachable (next : α → Option (List α)) (start : List α) : α → Prop
  | start {a : α} : a ∈ start → Reachable next start a
  | step {a b : α} {below : List α} :
    Reachable next start a → next a = some below → b ∈ below → Reachable next start b

namespace Reachable

theorem trans {start more : List α} {a : α} (h : Reachable next more a)
    (hmore : ∀ b ∈ more, Reachable next start b) : Reachable next start a := by
  induction h with
  | start hmem => exact hmore _ hmem
  | step _ hnext hmem ih => exact .step ih hnext hmem

theorem mono {start more : List α} {a : α} (h : Reachable next start a) (hsub : start ⊆ more) :
    Reachable next more a :=
  h.trans fun _ hmem => .start (hsub hmem)

theorem of_below {start below : List α} {a b : α} (ha : Reachable next start a)
    (hnext : next a = some below) (h : Reachable next below b) : Reachable next start b :=
  h.trans fun _ hmem => .step ha hnext hmem

/-- From nodes of a closed list nothing outside of it can be reached. -/
theorem mem_of_closed {start names : List α} {a : α} (h : Reachable next start a)
    (hstart : start ⊆ names)
    (hclosed : ∀ b ∈ names, ∀ below, next b = some below → below ⊆ names) : a ∈ names := by
  induction h with
  | start hmem => exact hstart hmem
  | step _ hnext hmem ih => exact hclosed _ ih _ hnext hmem

end Reachable

namespace Preorder

variable {seen nodes more visited : List α}

/-- A walk over a list is a walk over its first part, gone on with over the second. -/
theorem append : Preorder next seen (nodes ++ more) visited ↔
    ∃ between, Preorder next seen nodes between ∧ Preorder next between more visited := by
  constructor
  · intro h
    induction nodes generalizing seen with
    | nil => exact ⟨seen, .done seen, h⟩
    | cons a nodes ih =>
      cases h with
      | again hmem hrest =>
        obtain ⟨between, hfirst, hsecond⟩ := ih hrest
        exact ⟨between, .again hmem hfirst, hsecond⟩
      | visit hnew hnext hbelow hrest =>
        obtain ⟨between, hfirst, hsecond⟩ := ih hrest
        exact ⟨between, .visit hnew hnext hbelow hfirst, hsecond⟩
  · rintro ⟨between, hfirst, hsecond⟩
    induction hfirst with
    | done => exact hsecond
    | again hmem _ ih => exact .again hmem (ih hsecond)
    | visit hnew hnext hbelow _ _ ih => exact .visit hnew hnext hbelow (ih hsecond)

theorem seen_prefix (h : Preorder next seen nodes visited) : seen <+: visited := by
  induction h with
  | done => exact List.prefix_rfl
  | again _ _ ih => exact ih
  | visit _ _ _ _ ihbelow ihrest => exact (List.prefix_append _ _).trans (ihbelow.trans ihrest)

theorem nodup (h : Preorder next seen nodes visited) (hseen : seen.Nodup) : visited.Nodup := by
  induction h with
  | done => exact hseen
  | again _ _ ih => exact ih hseen
  | visit hnew _ _ _ ihbelow ihrest =>
    exact ihrest (ihbelow (List.nodup_append_comm.1 (List.nodup_cons.2 ⟨hnew, hseen⟩)))

theorem nodes_subset (h : Preorder next seen nodes visited) : nodes ⊆ visited := by
  induction h with
  | done => exact List.nil_subset _
  | again hmem hrest ih => exact List.cons_subset.2 ⟨hrest.seen_prefix.subset hmem, ih⟩
  | visit _ _ hbelow hrest _ ihrest =>
    refine List.cons_subset.2 ⟨?_, ihrest⟩
    exact (hbelow.seen_prefix.trans hrest.seen_prefix).subset (by simp)

/-- What is visited is closed: the successors of a node that the walk added are visited too. -/
theorem closed (h : Preorder next seen nodes visited) {a : α} (ha : a ∈ visited)
    (hnew : a ∉ seen) : ∃ below, next a = some below ∧ below ⊆ visited := by
  induction h with
  | done => exact absurd ha hnew
  | again _ _ ih => exact ih ha hnew
  | @visit _ below between _ _ b _ hnext hbelow hrest ihbelow ihrest =>
    by_cases hbetween : a ∈ between
    -- added by this visit: it is the root or was added below the root
    · by_cases hb : a = b
      · rw [hb]
        exact ⟨below, hnext, fun x hx => hrest.seen_prefix.subset (hbelow.nodes_subset hx)⟩
      · obtain ⟨succs, hs, hsub⟩ := ihbelow hbetween (by simp [hnew, hb])
        exact ⟨succs, hs, fun x hx => hrest.seen_prefix.subset (hsub hx)⟩
    · exact ihrest ha hbetween

/-- A walk adds nothing but what can be reached. -/
theorem reachable (h : Preorder next seen nodes visited) {a : α} (ha : a ∈ visited)
    (hnew : a ∉ seen) : Reachable next nodes a := by
  induction h with
  | done => exact absurd ha hnew
  | again _ _ ih => exact (ih ha hnew).mono (List.subset_cons_self _ _)
  | @visit _ below between nodes _ b _ hnext _ _ ihbelow ihrest =>
    have hroot : Reachable next (b :: nodes) b := .start List.mem_cons_self
    by_cases hbetween : a ∈ between
    -- the root is in the list, and what is below it can be reached from it
    · by_cases hb : a = b
      · exact hb ▸ hroot
      · exact hroot.of_below hnext (ihbelow hbetween (by simp [hnew, hb]))
    · exact (ihrest ha hbetween).mono (List.subset_cons_self _ _)

/-- A walk that starts with nothing seen visits exactly what can be reached. -/
theorem mem_iff_reachable (h : Preorder next [] nodes visited) {a : α} :
    a ∈ visited ↔ Reachable next nodes a := by
  refine ⟨fun ha => h.reachable ha List.not_mem_nil, fun hreach => ?_⟩
  -- along the way to the node, since a walk from nothing is closed everywhere
  induction hreach with
  | start hmem => exact h.nodes_subset hmem
  | step _ hnext hmem ih =>
    obtain ⟨below, hsome, hsub⟩ := h.closed ih List.not_mem_nil
    rw [hnext] at hsome
    exact hsub (Option.some.inj hsome ▸ hmem)

theorem congr {next' : α → Option (List α)} (h : Preorder next seen nodes visited)
    (hsame : ∀ a ∈ visited, next' a = next a) : Preorder next' seen nodes visited := by
  induction h with
  | done seen => exact .done seen
  | again hmem _ ih => exact .again hmem (ih hsame)
  | @visit _ _ _ _ _ a hnew hnext hbelow hrest ihbelow ihrest =>
    have ha := (hbelow.seen_prefix.trans hrest.seen_prefix).subset
      (List.mem_append_right _ (List.mem_singleton_self a))
    exact .visit hnew ((hsame a ha).trans hnext)
      (ihbelow fun b hb => hsame b (hrest.seen_prefix.subset hb)) (ihrest hsame)

/-- There is one walk at most. -/
theorem unique {other : List α} (h : Preorder next seen nodes visited)
    (hother : Preorder next seen nodes other) : visited = other := by
  induction h generalizing other with
  | done =>
    cases hother
    rfl
  | again hmem _ ih =>
    cases hother with
    | again _ hrest => exact ih hrest
    | visit hnew => exact absurd hmem hnew
  | visit hnew hnext _ _ ihbelow ihrest =>
    cases hother with
    | again hmem => exact absurd hmem hnew
    | visit _ hnext' hbelow hrest =>
      obtain rfl := Option.some.inj (hnext.symm.trans hnext')
      obtain rfl := ihbelow hbelow
      exact ihrest hrest

section Existence

variable [DecidableEq α] {branching : List α} {a : α}

-- what is left to visit shrinks with what has been seen
theorem unseen_sublist {between : List α} (h : seen ⊆ between) :
    (branching.filter (· ∉ between)).Sublist (branching.filter (· ∉ seen)) :=
  List.monotone_filter_right branching fun _ ha =>
    decide_eq_true fun hmem => of_decide_eq_true ha (h hmem)

theorem length_unseen_lt (hnew : a ∉ seen) (ha : a ∈ branching) :
    (branching.filter (· ∉ seen ++ [a])).length < (branching.filter (· ∉ seen)).length := by
  have hsub : (branching.filter (· ∉ seen ++ [a])).Sublist (branching.filter (· ∉ seen)) :=
    unseen_sublist (List.subset_append_left seen [a])
  refine hsub.length_le.lt_of_ne fun heq => ?_
  have hmem : a ∈ branching.filter (· ∉ seen ++ [a]) := by
    rw [hsub.eq_of_length heq]
    exact List.mem_filter.2 ⟨ha, decide_eq_true hnew⟩
  exact of_decide_eq_true (List.mem_filter.1 hmem).2
    (List.mem_append_right seen (List.mem_singleton_self a))

/-- There is a walk wherever every node has a list of successors, which is empty for all nodes but
some of finitely many. The outer induction is on how many of these are left to visit, the inner one
on the list. -/
theorem exists_visited (hnext : ∀ a, ∃ below, next a = some below)
    (hleaf : ∀ a, a ∉ branching → next a = some []) (seen nodes : List α) :
    ∃ visited, Preorder next seen nodes visited := by
  suffices hbound : ∀ count seen nodes, (branching.filter (· ∉ seen)).length ≤ count →
      ∃ visited, Preorder next seen nodes visited from hbound _ seen nodes le_rfl
  intro count
  induction count using Nat.strong_induction_on with
  | h count ih =>
    intro seen nodes hcount
    induction nodes generalizing seen with
    | nil => exact ⟨seen, .done seen⟩
    | cons a nodes ihnodes =>
      by_cases ha : a ∈ seen
      · obtain ⟨visited, hwalk⟩ := ihnodes seen hcount
        exact ⟨visited, .again ha hwalk⟩
      · obtain ⟨below, hbelow⟩ := hnext a
        have hinside : ∃ between, Preorder next (seen ++ [a]) below between := by
          by_cases hbranching : a ∈ branching
          · exact ih _ ((length_unseen_lt ha hbranching).trans_le hcount) _ _ le_rfl
          · obtain rfl := Option.some.inj (hbelow.symm.trans (hleaf a hbranching))
            exact ⟨seen ++ [a], .done _⟩
        obtain ⟨between, hinside⟩ := hinside
        have hsub : seen ⊆ between := fun b hb =>
          hinside.seen_prefix.subset (List.mem_append_left [a] hb)
        obtain ⟨visited, hrest⟩ := ihnodes between ((unseen_sublist hsub).length_le.trans hcount)
        exact ⟨visited, .visit ha hbelow hinside hrest⟩

end Existence

end Preorder

end BuildSteps
