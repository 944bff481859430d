import Mathlib.Data.Finset.Card
import BuildSteps.Proofs.Firsts
import BuildSteps.Tool.Collection

/-!
# Step tables and the calls that build them

A table that starts empty knows of the calls made on it which targets they mention, in order of
first mention, and which positions they add to each target, in order of the calls. Nothing else is
in it, and none of this is lost.
-/

namespace BuildSteps.StepTable

/-! ## 1. Logs of calls -/

inductive Call where
  | ensure (target : Target)
  | push (target : Target) (index : Nat)
  deriving DecidableEq, Repr

namespace Call

def target : Call → Target
  | ensure target => target
  | push target _ => target

def indices : Call → List Nat
  | ensure _ => []
  | push _ index => [index]

def isPush : Call → Bool
  | ensure _ => false
  | push _ _ => true

def apply (table : StepTable) : Call → StepTable
  | ensure target => table.ensure target
  | push target index => table.push target index

-- mentioning a target is adding no position to it
theorem entries_apply (call : Call) (table : StepTable) :
    (call.apply table).entries = alterEntries call.target (· ++ call.indices) table.entries := by
  cases call with
  | ensure target =>
    have hnone : (· ++ (ensure target).indices) = (id : List Nat → List Nat) :=
      funext fun steps => List.append_nil steps
    rw [hnone]
    rfl
  | push target index => rfl

end Call

def ofLog (log : List Call) : StepTable := log.foldl Call.apply empty

def mentions (log : List Call) : List Target := log.map (·.target)

def pushedFor (target : Target) (log : List Call) : List Nat :=
  (log.filter (·.target = target)).flatMap (·.indices)

theorem ofLog_concat (log : List Call) (call : Call) :
    ofLog (log ++ [call]) = call.apply (ofLog log) := by
  rw [ofLog, List.foldl_append]
  rfl

theorem pushedFor_concat (target : Target) (log : List Call) (call : Call) :
    pushedFor target (log ++ [call]) =
      pushedFor target log ++ if call.target = target then call.indices else [] := by
  rw [pushedFor, List.filter_append, List.flatMap_append, List.filter_singleton, pushedFor]
  by_cases htarget : call.target = target <;> simp [htarget]

theorem pushedFor_of_not_mem {target : Target} {log : List Call} (h : target ∉ mentions log) :
    pushedFor target log = [] := by
  have hnone : log.filter (·.target = target) = [] :=
    List.filter_eq_nil_iff.2 fun call hcall htarget =>
      h (of_decide_eq_true htarget ▸ List.mem_map_of_mem hcall)
  rw [pushedFor, hnone, List.flatMap_nil]

/-! ## 2. What a table holds -/

/-- In a table with one entry for each target, altering the steps of a target alters no others, and
a new target comes last. -/
theorem alterEntries_map {targets : List Target} (distinct : targets.Nodup) (target : Target)
    {steps : Target → List Nat} (new : target ∉ targets → steps target = [])
    (change : List Nat → List Nat) :
    alterEntries target change (targets.map fun t => ⟨t, steps t⟩) =
      (targets.insertLast target).map fun t =>
        ⟨t, if t = target then change (steps t) else steps t⟩ := by
  induction targets with
  | nil => simp [alterEntries, List.insertLast, new List.not_mem_nil]
  | cons first targets ih =>
    obtain ⟨hfirst, hrest⟩ := List.nodup_cons.1 distinct
    rw [List.map_cons, alterEntries]
    by_cases hsame : first = target
    -- the entry of the target, which no other one has
    · subst hsame
      have hothers : targets.map (fun t => Entry.mk t (steps t)) =
          targets.map fun t => ⟨t, if t = first then change (steps t) else steps t⟩ :=
        List.map_congr_left fun t ht => by rw [if_neg fun heq : t = first => hfirst (heq ▸ ht)]
      simp [List.insertLast, hothers]
    · have hnew : target ∉ targets → steps target = [] := fun hnot =>
        new fun hmem => (List.mem_cons.1 hmem).elim (fun heq => hsame heq.symm) hnot
      have hinsert : (first :: targets).insertLast target = first :: targets.insertLast target := by
        rw [List.insertLast, List.insertLast, List.contains_cons,
          beq_eq_false_iff_ne.2 (Ne.symm hsame), Bool.false_or]
        split <;> rfl
      rw [if_neg hsame, ih hrest hnew, hinsert, List.map_cons, if_neg hsame]

theorem nodup_mentioned (log : List Call) : ([].insertAllLast (mentions log)).Nodup := by
  simpa using (List.firstsBy_insertAllLast (mentions log)).distinct

/-- The entries of a table are the targets of the log, each once, with what is pushed for each. -/
theorem entries_ofLog (log : List Call) :
    (ofLog log).entries =
      ([].insertAllLast (mentions log)).map fun target => ⟨target, pushedFor target log⟩ := by
  induction log using List.reverseRecOn with
  | nil => rfl
  | append_singleton log call ih =>
    have hnew : call.target ∉ [].insertAllLast (mentions log) → pushedFor call.target log = [] :=
      fun hnot => pushedFor_of_not_mem fun hmem => hnot (List.mem_insertAllLast.2 (.inr hmem))
    have hmentions : [].insertAllLast (mentions (log ++ [call])) =
        ([].insertAllLast (mentions log)).insertLast call.target := by
      rw [mentions, List.map_append, List.insertAllLast, List.foldl_append]
      rfl
    rw [ofLog_concat, Call.entries_apply, ih, alterEntries_map (nodup_mentioned log)
      call.target hnew, hmentions]
    refine List.map_congr_left fun target _ => ?_
    rw [pushedFor_concat]
    by_cases htarget : target = call.target
    · rw [if_pos htarget, if_pos htarget.symm]
    · rw [if_neg htarget, if_neg (Ne.symm htarget), List.append_nil]

theorem targets_ofLog (log : List Call) :
    (ofLog log).entries.map (·.target) = [].insertAllLast (mentions log) := by
  rw [entries_ofLog, List.map_map, Function.comp_def, List.map_id']

theorem get?_ofLog (log : List Call) (target : Target) :
    (ofLog log).get? target =
      if target ∈ mentions log then some (pushedFor target log) else none := by
  have hmem : target ∈ [].insertAllLast (mentions log) ↔ target ∈ mentions log := by simp
  have hfind : (ofLog log).get? target =
      (([].insertAllLast (mentions log)).find? (· = target)).map (pushedFor · log) := by
    rw [get?, entries_ofLog, List.find?_map, Option.map_map]
    rfl
  rw [hfind]
  cases hfound : ([].insertAllLast (mentions log)).find? (· = target) with
  | none =>
    have hnot : target ∉ mentions log := fun hmentioned =>
      List.find?_eq_none.1 hfound target (hmem.2 hmentioned) (decide_eq_true rfl)
    rw [if_neg hnot]
    rfl
  | some found =>
    have hsame := List.find?_some hfound
    obtain rfl : found = target := of_decide_eq_true hsame
    rw [if_pos (hmem.1 (List.mem_of_find?_eq_some hfound))]
    rfl

theorem stepCount_alterEntries (target : Target) (added : List Nat) (entries : List Entry) :
    stepCount ⟨alterEntries target (· ++ added) entries⟩ =
      stepCount ⟨entries⟩ + added.length := by
  induction entries with
  | nil => exact Nat.add_comm _ _
  | cons entry entries ih =>
    rw [stepCount, stepCount] at ih
    rw [stepCount, stepCount, alterEntries]
    split
    · simp only [List.map_cons, List.foldr_cons, List.length_append]
      omega
    · simp only [List.map_cons, List.foldr_cons, ih]
      omega

theorem stepCount_ofLog (log : List Call) : (ofLog log).stepCount = log.countP (·.isPush) := by
  induction log using List.reverseRecOn with
  | nil => rfl
  | append_singleton log call ih =>
    have hcall : call.indices.length = [call].countP (·.isPush) := by cases call <;> rfl
    have hcount := stepCount_alterEntries call.target call.indices (ofLog log).entries
    rw [← Call.entries_apply, ← ofLog_concat] at hcount
    rw [List.countP_append, ← ih, ← hcall]
    exact hcount

/-! ## 3. Tables and logs -/

structure Records (table : StepTable) (log : List Call) : Prop where
  /-- The targets are those mentioned, each once and in order of first mention. -/
  targets : List.FirstsBy id (mentions log) (table.entries.map (·.target))
  unmentioned : ∀ target, table.get? target = none ↔ target ∉ mentions log
  mentioned : ∀ target ∈ mentions log, table.get? target = some (pushedFor target log)
  length : table.length = (mentions log).toFinset.card
  stepCount : table.stepCount = log.countP (·.isPush)

/-- **A table records its log.** Whatever calls have been made on an empty table, in whichever order
of targets, its targets are those mentioned, each once and in order of first mention. It answers
nothing just for a target that was never mentioned, and for any other one the positions pushed for
it, in the order in which they were pushed. Its length is the number of different targets, and its
count of steps the number of positions pushed. -/
theorem records_ofLog (log : List Call) : (ofLog log).Records log where
  targets := targets_ofLog log ▸ List.firstsBy_insertAllLast (mentions log)
  unmentioned target := by
    rw [get?_ofLog]
    split
    · next hmem => exact iff_of_false (Option.some_ne_none _) (not_not_intro hmem)
    · next hnot => exact iff_of_true rfl hnot
  mentioned target hmem := by rw [get?_ofLog, if_pos hmem]
  length := by
    have hsame : (mentions log).toFinset = ([].insertAllLast (mentions log)).toFinset := by
      ext target
      simp
    rw [hsame, List.toFinset_card_of_nodup (nodup_mentioned log), ← targets_ofLog, List.length_map]
    rfl
  stepCount := stepCount_ofLog log

example :
    let debug : Target := ⟨.win64, .vs2022, .debug⟩
    let release : Target := ⟨.win64, .vs2022, .release⟩
    ofLog [.push release 0, .ensure debug, .push release 1, .ensure release] =
      ⟨[⟨release, [0, 1]⟩, ⟨debug, []⟩]⟩ := by decide

end BuildSteps.StepTable
