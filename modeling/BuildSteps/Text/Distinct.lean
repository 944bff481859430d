/-!
# Lists without repeats

Adding to the end of a list what it does not hold yet.
-/

namespace List

variable {α : Type}

/-- Appending what is not there yet, one element after the other, appends the elements that the list
does not hold, the first of each class. -/
theorem foldl_append_unless (same : α → α → Bool) (xs ys : List α) :
    ys.foldl (fun xs a => if xs.any (same a) then xs else xs ++ [a]) xs =
      xs ++ (ys.filter fun a => !xs.any (same a)).eraseDupsBy same := by
  induction ys generalizing xs with
  | nil => simp
  | cons a ys ih =>
    rw [foldl_cons]
    by_cases ha : xs.any (same a) = true
    · rw [if_pos ha, ih, filter_cons_of_neg (by simp [ha])]
    · rw [if_neg ha, ih, filter_cons_of_pos (by simp [ha]), eraseDupsBy_cons, append_assoc,
        singleton_append, filter_filter]
      congr 3
      refine filter_congr fun b _ => ?_
      rw [any_append, any_cons, any_nil, Bool.or_false]
      cases xs.any (same b) <;> cases same b a <;> rfl

/-- Of the elements that are alike only the first is kept, and no element moves. -/
theorem eraseDupsBy_sublist (same : α → α → Bool) : ∀ xs : List α,
    (xs.eraseDupsBy same).Sublist xs
  | [] => .refl _
  | a :: xs => by
    rw [eraseDupsBy_cons]
    exact ((eraseDupsBy_sublist same _).trans filter_sublist).cons_cons a
termination_by xs => xs.length
decreasing_by exact Nat.lt_succ_of_le (length_filter_le _ _)

/-- None of the elements that are kept is like one before it. -/
theorem pairwise_eraseDupsBy (same : α → α → Bool) : ∀ xs : List α,
    (xs.eraseDupsBy same).Pairwise fun a b => same b a = false
  | [] => .nil
  | a :: xs => by
    rw [eraseDupsBy_cons]
    refine .cons (fun b hb => ?_) (pairwise_eraseDupsBy same _)
    exact of_decide_eq_true (mem_filter.1 ((eraseDupsBy_sublist same _).mem hb)).2
termination_by xs => xs.length
decreasing_by exact Nat.lt_succ_of_le (length_filter_le _ _)

/-- Where elements are alike only if they are equal, none gets lost. -/
theorem mem_eraseDupsBy {same : α → α → Bool} {a : α} : ∀ {xs : List α},
    (∀ a ∈ xs, ∀ b ∈ xs, same a b = true → a = b) → (a ∈ xs.eraseDupsBy same ↔ a ∈ xs)
  | [], _ => .rfl
  | b :: xs, h => by
    rw [eraseDupsBy_cons, mem_cons, mem_cons, mem_eraseDupsBy fun c hc d hd =>
      h c (mem_cons_of_mem b (mem_filter.1 hc).1) d (mem_cons_of_mem b (mem_filter.1 hd).1),
      mem_filter]
    constructor
    · exact fun ha => ha.imp_right And.left
    · rintro (rfl | ha)
      · exact .inl rfl
      · cases hsame : same a b with
        | true => exact .inl (h a (mem_cons_of_mem b ha) b mem_cons_self hsame)
        | false => exact .inr ⟨ha, rfl⟩
termination_by xs => xs.length
decreasing_by exact Nat.lt_succ_of_le (length_filter_le _ _)

/-- Where elements that are alike pass a test together, it makes no difference whether the test
comes before or after repeats are dropped. -/
theorem filter_eraseDupsBy {same : α → α → Bool} {p : α → Bool} : ∀ {xs : List α},
    (∀ a ∈ xs, ∀ b ∈ xs, same a b = true → p a = p b) →
      (xs.eraseDupsBy same).filter p = (xs.filter p).eraseDupsBy same
  | [], _ => rfl
  | a :: xs, h => by
    have hrest (q : α → Bool) : ∀ b ∈ xs.filter q, ∀ c ∈ xs.filter q, same b c = true → p b = p c :=
      fun b hb c hc => h b (mem_cons_of_mem a (mem_filter.1 hb).1) c
        (mem_cons_of_mem a (mem_filter.1 hc).1)
    have ih := filter_eraseDupsBy (hrest fun b => decide (same b a = false))
    rw [filter_filter] at ih
    rw [eraseDupsBy_cons]
    by_cases ha : p a = true
    · rw [filter_cons_of_pos ha, filter_cons_of_pos ha, eraseDupsBy_cons, ih, filter_filter]
      simp only [Bool.and_comm]
    -- no element that passes is like one that does not
    · rw [filter_cons_of_neg ha, filter_cons_of_neg ha, ih]
      congr 1
      refine filter_congr fun b hb => ?_
      cases hsame : same b a with
      | false => exact Bool.and_true _
      | true =>
        rw [h b (mem_cons_of_mem a hb) a mem_cons_self hsame, Bool.eq_false_iff.2 ha,
          Bool.false_and]
termination_by xs => xs.length
decreasing_by exact Nat.lt_succ_of_le (length_filter_le _ _)

variable [BEq α]

def insertLast (xs : List α) (a : α) : List α := if xs.contains a then xs else xs ++ [a]

def insertAllLast (xs ys : List α) : List α := ys.foldl insertLast xs

theorem insertAllLast_eq (xs ys : List α) :
    xs.insertAllLast ys = xs ++ (ys.filter fun a => !xs.contains a).eraseDups := by
  have hstep : insertLast = fun (xs : List α) a => if xs.any (a == ·) then xs else xs ++ [a] := by
    funext xs a
    rw [insertLast, any_beq]
  rw [insertAllLast, hstep, foldl_append_unless]
  simp only [any_beq]
  rfl

theorem nodup_eraseDups [LawfulBEq α] (xs : List α) : xs.eraseDups.Nodup := by
  refine (pairwise_eraseDupsBy (· == ·) xs).imp fun {a b} h hab => ?_
  rw [hab, beq_self_eq_true] at h
  cases h

@[simp] theorem mem_insertAllLast [LawfulBEq α] {xs ys : List α} {a : α} :
    a ∈ xs.insertAllLast ys ↔ a ∈ xs ∨ a ∈ ys := by
  rw [insertAllLast_eq, mem_append, mem_eraseDups, mem_filter, Bool.not_eq_true',
    contains_eq_mem, decide_eq_false_iff_not]
  constructor
  · exact fun h => h.imp_right And.left
  · intro h
    by_cases hx : a ∈ xs
    · exact .inl hx
    · exact .inr ⟨h.resolve_left hx, hx⟩

theorem insertAllLast_of_subset [LawfulBEq α] {xs ys : List α} (h : ys ⊆ xs) :
    xs.insertAllLast ys = xs := by
  rw [insertAllLast_eq, filter_eq_nil_iff.2 fun a ha => by simp [h ha], eraseDups_nil, append_nil]

@[simp] theorem insertAllLast_insertAllLast_self [LawfulBEq α] (xs ys : List α) :
    (xs.insertAllLast ys).insertAllLast ys = xs.insertAllLast ys :=
  insertAllLast_of_subset fun _ ha => mem_insertAllLast.2 (.inr ha)

end List
