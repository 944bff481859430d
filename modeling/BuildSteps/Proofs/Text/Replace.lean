import Mathlib.Data.List.Infix
import BuildSteps.Text.Basic

/-!
# Replacement in joined text

An occurrence of a text without blanks lies between two blanks, so that replacing it in texts joined
by blanks replaces it in each of them. A text that stays the same has no occurrence, unless each is
replaced by itself.
-/

namespace BuildSteps.Text

/-! ## 1. Characters -/

section Characters

variable {pattern replacement : List Char} {separator : Char}

-- what is left of an occurrence that reaches to the end
theorem replaceFrom_length (text : List Char) :
    replaceFrom pattern replacement text.length text = [] := by
  induction text with
  | nil => rfl
  | cons c text ih => exact ih

theorem replaceFrom_self (hne : pattern ≠ []) :
    replaceFrom pattern replacement 0 pattern = replacement := by
  obtain ⟨c, rest, rfl⟩ := List.exists_cons_of_ne_nil hne
  rw [replaceFrom, if_pos (List.isPrefixOf_iff_prefix.2 List.prefix_rfl)]
  show replacement ++ replaceFrom (c :: rest) replacement rest.length rest = replacement
  rw [replaceFrom_length, List.append_nil]

theorem replaceFrom_of_absent {text : List Char} (h : ¬ pattern <:+: text) :
    replaceFrom pattern replacement 0 text = text := by
  induction text with
  | nil => rfl
  | cons c text ih =>
    rw [List.infix_cons_iff, not_or] at h
    rw [replaceFrom, if_neg (mt List.isPrefixOf_iff_prefix.1 h.1), ih h.2]

theorem prefix_append_separator_iff (h : separator ∉ pattern) (text rest : List Char) :
    pattern <+: text ++ separator :: rest ↔ pattern <+: text := by
  refine ⟨?_, fun hprefix => hprefix.trans (List.prefix_append _ _)⟩
  rintro ⟨after, hafter⟩
  rcases List.append_eq_append_iff.1 hafter with ⟨between, htext, -⟩ | ⟨more, hpattern, hrest⟩
  · exact ⟨between, htext.symm⟩
  -- a pattern that is longer than the text would hold the separator
  · cases more with
    | nil => exact ⟨[], by rw [hpattern, List.append_nil, List.append_nil]⟩
    | cons c more =>
      obtain ⟨rfl, -⟩ := List.cons.inj hrest
      exact absurd (hpattern ▸ List.mem_append_right text List.mem_cons_self) h

/-- What stands before a separator is replaced as if nothing came after it. The induction is on that
text; `skip` does not reach beyond it, because no occurrence does. -/
theorem replaceFrom_append_separator (hne : pattern ≠ []) (h : separator ∉ pattern)
    (rest : List Char) {skip : Nat} {text : List Char} (hskip : skip ≤ text.length) :
    replaceFrom pattern replacement skip (text ++ separator :: rest) =
      replaceFrom pattern replacement skip text ++
        separator :: replaceFrom pattern replacement 0 rest := by
  induction text generalizing skip with
  | nil =>
    obtain rfl := Nat.le_zero.1 hskip
    have hno : ¬ pattern.isPrefixOf (separator :: rest) = true := by
      rw [List.isPrefixOf_iff_prefix]
      exact fun hprefix => hne
        (List.prefix_nil.1 ((prefix_append_separator_iff h [] rest).1 hprefix))
    show replaceFrom pattern replacement 0 (separator :: rest) = separator :: _
    rw [replaceFrom, if_neg hno]
  | cons c text ih =>
    cases skip with
    | succ skip => exact ih (Nat.le_of_succ_le_succ hskip)
    | zero =>
      have hsame : pattern.isPrefixOf (c :: (text ++ separator :: rest)) =
          pattern.isPrefixOf (c :: text) := by
        rw [Bool.eq_iff_iff, List.isPrefixOf_iff_prefix, List.isPrefixOf_iff_prefix]
        exact prefix_append_separator_iff h (c :: text) rest
      rw [List.cons_append, replaceFrom, replaceFrom, hsame]
      split
      · next hprefix =>
        have hlength := (List.isPrefixOf_iff_prefix.1 hprefix).length_le
        rw [List.length_cons] at hlength
        rw [ih (by omega), List.append_assoc]
      · rw [ih (Nat.zero_le _), List.cons_append]

theorem infix_append_separator_iff (hne : pattern ≠ []) (h : separator ∉ pattern)
    (text rest : List Char) :
    pattern <:+: text ++ separator :: rest ↔ pattern <:+: text ∨ pattern <:+: rest := by
  induction text with
  | nil =>
    have hprefix : ¬ pattern <+: separator :: rest := fun hprefix => hne
      (List.prefix_nil.1 ((prefix_append_separator_iff h [] rest).1 hprefix))
    have hnil : ¬ pattern <:+: [] := fun hinfix => hne (List.infix_nil.1 hinfix)
    rw [List.nil_append, List.infix_cons_iff]
    exact or_congr (iff_of_false hprefix hnil) Iff.rfl
  | cons c text ih =>
    rw [List.cons_append, List.infix_cons_iff, ih, List.infix_cons_iff, or_assoc]
    exact or_congr (prefix_append_separator_iff h (c :: text) rest) Iff.rfl

/-! ## 2. What replacement changes -/

-- the characters of an occurrence are dropped
theorem replaceFrom_append (front rest : List Char) :
    replaceFrom pattern replacement front.length (front ++ rest) =
      replaceFrom pattern replacement 0 rest := by
  induction front with
  | nil => rfl
  | cons c front ih => exact ih

/-- The first occurrence is replaced, and then those in what stands behind it. -/
theorem exists_replaceFrom_eq {text : List Char} (hne : pattern ≠ []) (h : pattern <:+: text) :
    ∃ front rest, ¬ pattern <:+: front ∧ text = front ++ (pattern ++ rest) ∧
      replaceFrom pattern replacement 0 text =
        front ++ (replacement ++ replaceFrom pattern replacement 0 rest) := by
  induction text with
  | nil => exact absurd (List.infix_nil.1 h) hne
  | cons c text ih =>
    rw [replaceFrom]
    split
    · next hprefix =>
      obtain ⟨rest, hrest⟩ := List.isPrefixOf_iff_prefix.1 hprefix
      refine ⟨[], rest, mt List.infix_nil.1 hne, hrest.symm, ?_⟩
      obtain ⟨d, tail, rfl⟩ := List.exists_cons_of_ne_nil hne
      obtain ⟨-, rfl⟩ := List.cons.inj hrest
      exact congrArg (replacement ++ ·) (replaceFrom_append tail rest)
    · next hprefix =>
      have hinfix := (List.infix_cons_iff.1 h).resolve_left
        (mt List.isPrefixOf_iff_prefix.2 hprefix)
      obtain ⟨front, rest, hfront, htext, hreplace⟩ := ih hinfix
      refine ⟨c :: front, rest, ?_, congrArg (c :: ·) htext, congrArg (c :: ·) hreplace⟩
      rw [List.infix_cons_iff, not_or]
      refine ⟨fun hstart => hprefix (List.isPrefixOf_iff_prefix.2 (hstart.trans ?_)), hfront⟩
      rw [htext]
      exact List.prefix_append _ _

/-- What holds of a text without an occurrence and is kept when an occurrence is put in front holds
of every text and the text after replacement. -/
theorem replaceFrom_induction {motive : List Char → List Char → Prop} (hne : pattern ≠ [])
    (absent : ∀ text, ¬ pattern <:+: text → motive text text)
    (occurrence : ∀ front rest result, ¬ pattern <:+: front → motive rest result →
      motive (front ++ (pattern ++ rest)) (front ++ (replacement ++ result)))
    (text : List Char) : motive text (replaceFrom pattern replacement 0 text) := by
  by_cases h : pattern <:+: text
  · obtain ⟨front, rest, hfront, htext, hreplace⟩ := exists_replaceFrom_eq hne h
    have hshorter : rest.length < text.length := by
      have hpattern := List.length_pos_of_ne_nil hne
      rw [htext, List.length_append, List.length_append]
      omega
    rw [hreplace]
    conv in motive text => rw [htext]
    exact occurrence front rest _ hfront (replaceFrom_induction hne absent occurrence rest)
  · have hsame : replaceFrom pattern replacement 0 text = text := replaceFrom_of_absent h
    rw [hsame]
    exact absent text h
termination_by text.length

theorem length_replaceFrom (hne : pattern ≠ []) (text : List Char) :
    (pattern.length ≤ replacement.length →
      text.length ≤ (replaceFrom pattern replacement 0 text).length) ∧
    (replacement.length ≤ pattern.length →
      (replaceFrom pattern replacement 0 text).length ≤ text.length) := by
  refine replaceFrom_induction (motive := fun text result =>
    (pattern.length ≤ replacement.length → text.length ≤ result.length) ∧
      (replacement.length ≤ pattern.length → result.length ≤ text.length)) hne ?_ ?_ text
  · exact fun text _ => ⟨fun _ => Nat.le_refl _, fun _ => Nat.le_refl _⟩
  · intro front rest result _ ih
    simp only [List.length_append]
    omega

/-- A character that the pattern does not have becomes no rarer, and less rare where an occurrence
is replaced by a text that has it. -/
theorem count_replaceFrom {c : Char} (hne : pattern ≠ []) (hc : c ∉ pattern) (text : List Char) :
    text.count c ≤ (replaceFrom pattern replacement 0 text).count c ∧
      (c ∈ replacement → pattern <:+: text →
        text.count c < (replaceFrom pattern replacement 0 text).count c) := by
  refine replaceFrom_induction (motive := fun text result => text.count c ≤ result.count c ∧
    (c ∈ replacement → pattern <:+: text → text.count c < result.count c)) hne ?_ ?_ text
  · exact fun text h => ⟨Nat.le_refl _, fun _ hinfix => absurd hinfix h⟩
  · intro front rest result _ ih
    simp only [List.count_append, List.count_eq_zero_of_not_mem hc]
    refine ⟨by omega, fun hmem _ => ?_⟩
    have hpos := List.count_pos_iff.2 hmem
    omega

/-- Replacement changes every text that has an occurrence, unless it does nothing. -/
theorem replaceFrom_eq_self_iff (hne : pattern ≠ []) {text : List Char} :
    replaceFrom pattern replacement 0 text = text ↔ ¬ pattern <:+: text ∨ replacement = pattern := by
  constructor
  · intro h
    by_contra! hnot
    obtain ⟨front, rest, -, htext, hreplace⟩ := exists_replaceFrom_eq hne hnot.1
    rw [h, htext, List.append_right_inj] at hreplace
    -- the rest makes up for no difference in length
    have hlength : pattern.length = replacement.length := by
      have hsum := congrArg List.length hreplace
      rw [List.length_append, List.length_append] at hsum
      have hrest := @length_replaceFrom pattern replacement hne rest
      omega
    exact hnot.2 (List.append_inj hreplace hlength).1.symm
  · rintro (h | rfl)
    · exact replaceFrom_of_absent h
    · refine replaceFrom_induction (motive := fun text result => result = text) hne ?_ ?_ text
      · exact fun _ _ => rfl
      · intro front rest result _ ih
        rw [ih]

end Characters

/-! ## 3. Texts -/

variable {pattern replacement : String}

theorem replace_eq (hne : pattern ≠ "") (text : String) :
    replace pattern replacement text =
      String.ofList (replaceFrom pattern.toList replacement.toList 0 text.toList) := by
  rw [replace, if_neg]
  rw [List.isEmpty_iff]
  exact fun hnil => hne (String.toList_eq_nil_iff.1 hnil)

theorem replace_self (hne : pattern ≠ "") : replace pattern replacement pattern = replacement := by
  rw [replace_eq hne, replaceFrom_self fun hnil => hne (String.toList_eq_nil_iff.1 hnil),
    String.ofList_toList]

theorem replace_of_absent (hne : pattern ≠ "") {text : String}
    (h : ¬ pattern.toList <:+: text.toList) : replace pattern replacement text = text := by
  rw [replace_eq hne, replaceFrom_of_absent h, String.ofList_toList]

theorem replace_append_blank (hne : pattern ≠ "") (h : ' ' ∉ pattern.toList) (text rest : String) :
    replace pattern replacement (text ++ " " ++ rest) =
      replace pattern replacement text ++ " " ++ replace pattern replacement rest := by
  have hchars : (text ++ " " ++ rest).toList = text.toList ++ ' ' :: rest.toList := by
    rw [String.toList_append, String.toList_append, List.append_assoc]
    rfl
  have hpattern : pattern.toList ≠ [] := fun hnil => hne (String.toList_eq_nil_iff.1 hnil)
  rw [replace_eq hne, replace_eq hne, replace_eq hne, hchars,
    replaceFrom_append_separator hpattern h _ (Nat.zero_le _), String.ofList_append,
    String.ofList_cons, String.append_assoc]
  rfl

theorem replace_join (hne : pattern ≠ "") (h : ' ' ∉ pattern.toList) (texts : List String) :
    replace pattern replacement (join " " texts) =
      join " " (texts.map (replace pattern replacement)) := by
  induction texts with
  | nil =>
    rw [replace_eq hne]
    rfl
  | cons text texts ih =>
    cases texts with
    | nil => rfl
    | cons next texts =>
      show replace pattern replacement (text ++ " " ++ join " " (next :: texts)) = _
      rw [replace_append_blank hne h, ih]
      rfl

theorem count_replace {c : Char} (hne : pattern ≠ "") (hc : c ∉ pattern.toList) (text : String) :
    text.toList.count c ≤ (replace pattern replacement text).toList.count c ∧
      (c ∈ replacement.toList → pattern.toList <:+: text.toList →
        text.toList.count c < (replace pattern replacement text).toList.count c) := by
  rw [replace_eq hne, String.toList_ofList]
  exact count_replaceFrom (fun hnil => hne (String.toList_eq_nil_iff.1 hnil)) hc _

theorem replace_eq_self_iff (hne : pattern ≠ "") {text : String} :
    replace pattern replacement text = text ↔
      ¬ pattern.toList <:+: text.toList ∨ replacement = pattern := by
  rw [replace_eq hne, ← String.toList_inj, String.toList_ofList,
    replaceFrom_eq_self_iff fun hnil => hne (String.toList_eq_nil_iff.1 hnil), String.toList_inj]

theorem infix_join_iff (hne : pattern ≠ "") (h : ' ' ∉ pattern.toList) {texts : List String} :
    pattern.toList <:+: (join " " texts).toList ↔
      ∃ text ∈ texts, pattern.toList <:+: text.toList := by
  have hpattern : pattern.toList ≠ [] := fun hnil => hne (String.toList_eq_nil_iff.1 hnil)
  induction texts with
  | nil =>
    refine iff_of_false (fun hinfix => hpattern (List.infix_nil.1 hinfix)) ?_
    rintro ⟨_, hmem, -⟩
    cases hmem
  | cons text texts ih =>
    cases texts with
    | nil => simp [join]
    | cons next texts =>
      have hchars : (join " " (text :: next :: texts)).toList =
          text.toList ++ ' ' :: (join " " (next :: texts)).toList := by
        rw [join, String.toList_append, String.toList_append, List.append_assoc]
        · rfl
        · exact List.cons_ne_nil _ _
      rw [hchars, infix_append_separator_iff hpattern h, List.exists_mem_cons_iff]
      exact or_congr Iff.rfl ih

end BuildSteps.Text
