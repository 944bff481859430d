/-!
# Texts

`split` cuts a text at every occurrence of a separator character and `join` is its inverse; a text is
searched for a contiguous run of characters, which `replace` replaces from left to right.
-/

namespace BuildSteps.Text

/-! ## 1. Splitting and joining -/

/-- The pieces of a text between the occurrences of `separator`; there is always at least one. -/
def splitChars (separator : Char) : List Char → List (List Char)
  | [] => [[]]
  | c :: rest =>
    if c = separator then [] :: splitChars separator rest
    else
      match splitChars separator rest with
      | [] => [[c]]
      | piece :: pieces => (c :: piece) :: pieces

def split (separator : Char) (text : String) : List String :=
  (splitChars separator text.toList).map String.ofList

def join (separator : String) : List String → String
  | [] => ""
  | [text] => text
  | text :: texts => text ++ separator ++ join separator texts

theorem splitChars_ne_nil (separator : Char) (text : List Char) :
    splitChars separator text ≠ [] := by
  cases text with
  | nil => simp [splitChars]
  | cons c rest =>
    simp only [splitChars]
    split
    · simp
    · split <;> simp

/-! ## 2. Search and replacement -/

def occursIn {α : Type} [BEq α] (pattern : List α) : List α → Bool
  | [] => pattern.isEmpty
  | a :: rest => pattern.isPrefixOf (a :: rest) || occursIn pattern rest

theorem occursIn_iff {α : Type} [BEq α] [LawfulBEq α] {pattern text : List α} :
    occursIn pattern text = true ↔ pattern <:+: text := by
  induction text with
  | nil => simp [occursIn]
  | cons a rest ih =>
    rw [occursIn, Bool.or_eq_true, ih, List.isPrefixOf_iff_prefix, List.infix_cons_iff]

/-- Replaces `pattern` from left to right; the first `skip` characters belong to an occurrence that
has been replaced already and are dropped. -/
def replaceFrom (pattern replacement : List Char) : Nat → List Char → List Char
  | _, [] => []
  | skip + 1, _ :: rest => replaceFrom pattern replacement skip rest
  | 0, c :: rest =>
    if pattern.isPrefixOf (c :: rest) then
      replacement ++ replaceFrom pattern replacement (pattern.length - 1) rest
    else c :: replaceFrom pattern replacement 0 rest

/-- Replaces every occurrence of a nonempty `pattern`, left to right and without overlap. -/
def replace (pattern replacement text : String) : String :=
  if pattern.toList.isEmpty then text
  else String.ofList (replaceFrom pattern.toList replacement.toList 0 text.toList)

def endsWith (text tail : String) : Bool := tail.toList.isSuffixOf text.toList

def dropLeading (c : Char) (text : String) : String :=
  String.ofList (text.toList.dropWhile (· == c))

end BuildSteps.Text
