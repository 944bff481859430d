import Mathlib.Data.List.Basic
import BuildSteps.Text.Basic

/-!
# Splitting what was joined

Texts that do not hold the separator come back when they are joined with it and split again. No
piece of a text holds the separator, and at each separator the pieces fall into two groups.
-/

namespace BuildSteps.Text

variable {separator : Char}

-- one piece, or a piece and what follows the separator
theorem splitChars_of_not_mem {piece : List Char} (h : separator ∉ piece) :
    splitChars separator piece = [piece] := by
  induction piece with
  | nil => rfl
  | cons c piece ih =>
    have hc : c ≠ separator := fun heq => h (heq ▸ List.mem_cons_self)
    rw [splitChars, if_neg hc, ih fun hmem => h (List.mem_cons_of_mem c hmem)]

theorem splitChars_append {piece : List Char} (h : separator ∉ piece) (rest : List Char) :
    splitChars separator (piece ++ separator :: rest) = piece :: splitChars separator rest := by
  induction piece with
  | nil => rw [List.nil_append, splitChars, if_pos rfl]
  | cons c piece ih =>
    have hc : c ≠ separator := fun heq => h (heq ▸ List.mem_cons_self)
    rw [List.cons_append, splitChars, if_neg hc, ih fun hmem => h (List.mem_cons_of_mem c hmem)]

theorem splitChars_append_separator (text rest : List Char) :
    splitChars separator (text ++ separator :: rest) =
      splitChars separator text ++ splitChars separator rest := by
  induction text with
  | nil => rw [List.nil_append, splitChars, splitChars, if_pos rfl, List.singleton_append]
  | cons c text ih =>
    rw [List.cons_append, splitChars, splitChars, ih]
    by_cases hc : c = separator
    · rw [if_pos hc, if_pos hc, List.cons_append]
    · rw [if_neg hc, if_neg hc]
      cases htext : splitChars separator text with
      | nil => exact absurd htext (splitChars_ne_nil separator text)
      | cons piece pieces => rfl

theorem not_mem_of_mem_splitChars {text piece : List Char}
    (h : piece ∈ splitChars separator text) : separator ∉ piece := by
  induction text generalizing piece with
  | nil =>
    obtain rfl := List.mem_singleton.1 h
    exact List.not_mem_nil
  | cons c text ih =>
    rw [splitChars] at h
    by_cases hc : c = separator
    · rw [if_pos hc] at h
      rcases List.mem_cons.1 h with rfl | hmem
      · exact List.not_mem_nil
      · exact ih hmem
    · rw [if_neg hc] at h
      cases htext : splitChars separator text with
      | nil => exact absurd htext (splitChars_ne_nil separator text)
      | cons first pieces =>
        rw [htext] at h ih
        rcases List.mem_cons.1 h with rfl | hmem
        -- the character joins the first piece of the rest
        · rw [List.mem_cons, not_or]
          exact ⟨fun heq => hc heq.symm, ih List.mem_cons_self⟩
        · exact ih (List.mem_cons_of_mem first hmem)

theorem split_join {texts : List String} (hne : texts ≠ [])
    (h : ∀ text ∈ texts, separator ∉ text.toList) :
    split separator (join (String.singleton separator) texts) = texts := by
  induction texts with
  | nil => exact absurd rfl hne
  | cons text texts ih =>
    have htext := h text List.mem_cons_self
    cases texts with
    | nil =>
      rw [join, split, splitChars_of_not_mem htext, List.map_singleton, String.ofList_toList]
    | cons next texts =>
      have hrest := ih (List.cons_ne_nil next texts) fun other hother =>
        h other (List.mem_cons_of_mem text hother)
      -- on lists of characters the separator is one element
      have happend : (text ++ String.singleton separator ++
          join (String.singleton separator) (next :: texts)).toList =
            text.toList ++ separator :: (join (String.singleton separator) (next :: texts)).toList := by
        rw [String.toList_append, String.toList_append, String.toList_singleton, List.append_assoc,
          List.singleton_append]
      rw [join, split, happend, splitChars_append htext, List.map_cons, String.ofList_toList]
      · exact congrArg (text :: ·) hrest
      · exact List.cons_ne_nil next texts

theorem join_split (separator : Char) (text : String) :
    join (String.singleton separator) (split separator text) = text := by
  obtain ⟨chars, rfl⟩ : ∃ chars, text = String.ofList chars := ⟨_, String.ofList_toList.symm⟩
  rw [split, String.toList_ofList]
  induction chars with
  | nil => rfl
  | cons c chars ih =>
    obtain ⟨first, rest, hpieces⟩ := List.exists_cons_of_ne_nil (splitChars_ne_nil separator chars)
    rw [splitChars, hpieces]
    rw [hpieces] at ih
    split
    · next hc =>
      rw [List.map_cons, List.map_cons, join, ← List.map_cons, ih, hc, String.ofList_cons,
        String.ofList_nil, String.empty_append]
      exact List.cons_ne_nil _ _
    -- the character stands in front of the first piece of the rest
    · rw [String.ofList_cons, ← ih]
      cases rest with
      | nil => exact String.ofList_cons
      | cons second rest =>
        show String.ofList (c :: first) ++ _ ++ _ = _ ++ (String.ofList first ++ _ ++ _)
        rw [String.ofList_cons, String.append_assoc, String.append_assoc, String.append_assoc]

/-- Texts that are joined already can be joined to others at once. -/
theorem join_append_join (separator : String) (front : List String) {texts : List String}
    (hne : texts ≠ []) :
    join separator (front ++ [join separator texts]) = join separator (front ++ texts) := by
  obtain ⟨text, rest, rfl⟩ := List.exists_cons_of_ne_nil hne
  induction front with
  | nil => rfl
  | cons first front ih =>
    cases front with
    | nil => rfl
    | cons second front =>
      show first ++ separator ++ join separator (second :: front ++ [_]) =
        first ++ separator ++ join separator (second :: front ++ _)
      rw [ih]

theorem join_append (separator : String) {front texts : List String} (hfront : front ≠ [])
    (hne : texts ≠ []) :
    join separator (front ++ texts) = join separator front ++ separator ++ join separator texts := by
  induction front with
  | nil => exact absurd rfl hfront
  | cons first front ih =>
    cases front with
    | nil =>
      obtain ⟨text, rest, rfl⟩ := List.exists_cons_of_ne_nil hne
      rfl
    | cons second front =>
      show first ++ separator ++ join separator (second :: front ++ texts) =
        first ++ separator ++ join separator (second :: front) ++ separator ++ join separator texts
      rw [ih (List.cons_ne_nil second front)]
      simp only [String.append_assoc]

end BuildSteps.Text
