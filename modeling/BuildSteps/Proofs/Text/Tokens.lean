import BuildSteps.Path
import BuildSteps.Proofs.Text.Split

/-!
# Tokens of a line

A command line is read as the texts between its blanks. A blank inside double quotes does not count,
and the quotes themselves are dropped.
-/

namespace BuildSteps.Text

/-! ## 1. Reading a line -/

/-- The tokens of a line; `inside` tells whether a quote is open in front of it. -/
def tokensFrom : Bool → List Char → List (List Char)
  | _, [] => [[]]
  | inside, c :: line =>
    if c = '"' then tokensFrom (!inside) line
    else if c = ' ' ∧ inside = false then [] :: tokensFrom inside line
    else
      match tokensFrom inside line with
      | [] => [[c]]
      | token :: tokens => (c :: token) :: tokens

/-- The texts between the blanks outside double quotes, without the quotes. -/
def tokens (line : String) : List String := (tokensFrom false line.toList).map String.ofList

def insideAfter (inside : Bool) (line : List Char) : Bool :=
  line.foldl (fun inside c => if c = '"' then !inside else inside) inside

def Closed (text : String) : Prop := insideAfter false text.toList = false

theorem insideAfter_of_not_mem {line : List Char} (h : '"' ∉ line) (inside : Bool) :
    insideAfter inside line = inside := by
  induction line with
  | nil => rfl
  | cons c line ih =>
    obtain ⟨hc, hline⟩ := not_or.1 (mt List.mem_cons.2 h)
    rw [insideAfter, List.foldl_cons, if_neg (Ne.symm hc)]
    exact ih hline

theorem tokensFrom_ne_nil (inside : Bool) (line : List Char) : tokensFrom inside line ≠ [] := by
  induction line generalizing inside with
  | nil => exact List.cons_ne_nil _ _
  | cons c line ih =>
    rw [tokensFrom]
    split
    · exact ih _
    · split
      · exact List.cons_ne_nil _ _
      · split <;> exact List.cons_ne_nil _ _

/-- A blank behind closed quotes ends a token, whatever comes after it. -/
theorem tokensFrom_append_blank {inside : Bool} {line : List Char}
    (h : insideAfter inside line = false) (rest : List Char) :
    tokensFrom inside (line ++ ' ' :: rest) = tokensFrom inside line ++ tokensFrom false rest := by
  induction line generalizing inside with
  | nil =>
    obtain rfl : inside = false := h
    rfl
  | cons c line ih =>
    rw [insideAfter, List.foldl_cons] at h
    rw [List.cons_append, tokensFrom, tokensFrom]
    by_cases hquote : c = '"'
    · rw [if_pos hquote] at h
      rw [if_pos hquote, if_pos hquote, ih h]
    · rw [if_neg hquote] at h
      rw [if_neg hquote, if_neg hquote, ih h]
      split
      · rfl
      · cases htokens : tokensFrom inside line with
        | nil => exact absurd htokens (tokensFrom_ne_nil inside line)
        | cons token tokens => rfl

/-! ## 2. Plain and quoted texts -/

theorem tokensFrom_false_of_not_mem {line : List Char} (h : '"' ∉ line) :
    tokensFrom false line = splitChars ' ' line := by
  induction line with
  | nil => rfl
  | cons c line ih =>
    obtain ⟨hc, hline⟩ := not_or.1 (mt List.mem_cons.2 h)
    rw [tokensFrom, if_neg (Ne.symm hc), ih hline, splitChars]
    by_cases hblank : c = ' '
    · rw [if_pos ⟨hblank, rfl⟩, if_pos hblank]
    · rewrite [if_neg (mt And.left hblank), if_neg hblank]
      cases splitChars ' ' line <;> rfl

theorem tokensFrom_true_append_quote {text : List Char} (h : '"' ∉ text) :
    tokensFrom true (text ++ ['"']) = [text] := by
  induction text with
  | nil => rfl
  | cons c text ih =>
    obtain ⟨hc, htext⟩ := not_or.1 (mt List.mem_cons.2 h)
    rw [List.cons_append, tokensFrom, if_neg (Ne.symm hc), if_neg (mt And.right (by decide)),
      ih htext]

/-- An option in front of one token becomes part of the token. -/
theorem tokensFrom_append_of_singleton {option : List Char} (hquote : '"' ∉ option)
    (hblank : ' ' ∉ option) {inside : Bool} {line token : List Char}
    (h : tokensFrom inside line = [token]) :
    tokensFrom inside (option ++ line) = [option ++ token] := by
  induction option with
  | nil => exact h
  | cons c option ih =>
    obtain ⟨hc, hquote⟩ := not_or.1 (mt List.mem_cons.2 hquote)
    obtain ⟨hc', hblank⟩ := not_or.1 (mt List.mem_cons.2 hblank)
    rw [List.cons_append, tokensFrom, if_neg (Ne.symm hc), if_neg fun h => hc' h.1.symm,
      ih hquote hblank]
    rfl

theorem tokens_of_not_mem {text : String} (h : '"' ∉ text.toList) : tokens text = split ' ' text := by
  rw [tokens, tokensFrom_false_of_not_mem h, split]

theorem closed_of_not_mem {text : String} (h : '"' ∉ text.toList) : Closed text :=
  insideAfter_of_not_mem h false

theorem tokensFrom_quoted {p : Path} (h : '"' ∉ p.text.toList) :
    tokensFrom false p.quoted.toList = [p.text.toList] := by
  rw [Path.quoted]
  split
  · rw [String.toList_append, String.toList_append, List.append_assoc]
    exact tokensFrom_true_append_quote h
  · next hplain => rw [tokensFrom_false_of_not_mem h, splitChars_of_not_mem hplain]

theorem tokens_quoted {p : Path} (h : '"' ∉ p.text.toList) : tokens p.quoted = [p.text] := by
  rw [tokens, tokensFrom_quoted h, List.map_singleton, String.ofList_toList]

/-- A path is one token with the option in front of it. -/
theorem tokens_append_quoted {option : String} (hquote : '"' ∉ option.toList)
    (hblank : ' ' ∉ option.toList) {p : Path} (h : '"' ∉ p.text.toList) :
    tokens (option ++ p.quoted) = [option ++ p.text] := by
  rw [tokens, String.toList_append,
    tokensFrom_append_of_singleton hquote hblank (tokensFrom_quoted h), List.map_singleton,
    String.ofList_append, String.ofList_toList, String.ofList_toList]

theorem closed_quoted {p : Path} (h : '"' ∉ p.text.toList) : Closed p.quoted := by
  rw [Closed, Path.quoted]
  split
  · rw [String.toList_append, String.toList_append, insideAfter, List.foldl_append,
      List.foldl_append]
    show insideAfter (insideAfter true p.text.toList) ['"'] = false
    rw [insideAfter_of_not_mem h]
    rfl
  · exact insideAfter_of_not_mem h false

theorem Closed.append {text more : String} (h : Closed text) (hmore : Closed more) :
    Closed (text ++ more) := by
  rw [Closed, String.toList_append, insideAfter, List.foldl_append]
  show insideAfter (insideAfter false text.toList) more.toList = false
  rw [h, hmore]

/-! ## 3. Joined texts -/

/-- Texts whose quotes are closed are read one after the other. -/
theorem tokens_join {texts : List String} (hne : texts ≠ []) (h : ∀ text ∈ texts, Closed text) :
    tokens (join " " texts) = texts.flatMap tokens := by
  induction texts with
  | nil => exact absurd rfl hne
  | cons text texts ih =>
    obtain ⟨hfirst, hrest⟩ := List.forall_mem_cons.1 h
    cases texts with
    | nil => rw [List.flatMap_singleton]; rfl
    | cons next texts =>
      have hchars : (text ++ " " ++ join " " (next :: texts)).toList =
          text.toList ++ ' ' :: (join " " (next :: texts)).toList := by
        rw [String.toList_append, String.toList_append, List.append_assoc]
        rfl
      show tokens (text ++ " " ++ join " " (next :: texts)) = _
      rw [List.flatMap_cons, ← ih (List.cons_ne_nil _ _) hrest, tokens, hchars,
        tokensFrom_append_blank hfirst, List.map_append]
      rfl

end BuildSteps.Text
