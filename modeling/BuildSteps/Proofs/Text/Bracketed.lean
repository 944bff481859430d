import Mathlib.Data.List.Infix

/-!
# Names in brackets

Names that stand in square brackets and have no others inside, so that no two of them overlap. A
value that is put into a text can bring in a part of a name all the same; it is inert for the name
if it brings in none, whatever stands around it.
-/

namespace BuildSteps.Text

/-! ## 1. Names -/

def IsBracketed (name : List Char) : Prop :=
  ∃ inner, name = '[' :: (inner ++ [']']) ∧ '[' ∉ inner ∧ ']' ∉ inner

theorem IsBracketed.ne_nil {name : List Char} (h : IsBracketed name) : name ≠ [] := by
  obtain ⟨inner, rfl, -⟩ := h
  exact List.cons_ne_nil _ _

/-- Of two parts of a name the first has the opening bracket, and the second the closing one. -/
theorem IsBracketed.exists_parts {name u w : List Char} (h : IsBracketed name)
    (hname : name = u ++ w) (hu : u ≠ []) (hw : w ≠ []) :
    ∃ u' w', u = '[' :: u' ∧ w = w' ++ [']'] ∧ ('[' ∉ u' ∧ ']' ∉ u') ∧ '[' ∉ w' ∧ ']' ∉ w' := by
  obtain ⟨inner, hinner, hopen, hclose⟩ := h
  obtain ⟨c, u', rfl⟩ := List.exists_cons_of_ne_nil hu
  obtain ⟨w', d, rfl⟩ := (List.eq_nil_or_concat' w).resolve_left hw
  rw [hname, List.cons_append, List.cons.injEq, ← List.append_assoc] at hinner
  obtain ⟨rfl, hinner⟩ := hinner
  obtain ⟨rfl, hlast⟩ := List.append_inj' hinner rfl
  obtain rfl := (List.cons.inj hlast).1
  rw [List.mem_append, not_or] at hopen hclose
  exact ⟨u', w', rfl, rfl, ⟨hopen.1, hclose.1⟩, hopen.2, hclose.2⟩

theorem IsBracketed.eq_of_isPrefix {name other : List Char} (h : IsBracketed name)
    (hother : IsBracketed other) (hstarts : name <+: other) : name = other := by
  obtain ⟨w, rfl⟩ := hstarts
  by_cases hw : w = []
  · rw [hw, List.append_nil]
  · obtain ⟨u', w', rfl, -, ⟨-, hclose⟩, -⟩ := hother.exists_parts rfl h.ne_nil hw
    obtain ⟨inner, hinner, -⟩ := h
    rw [(List.cons.inj hinner).2] at hclose
    exact absurd (List.mem_append_right inner List.mem_cons_self) hclose

theorem IsBracketed.eq_of_isInfix {name other : List Char} (h : IsBracketed name)
    (hother : IsBracketed other) (hoccurs : name <:+: other) : name = other := by
  obtain ⟨front, rest, rfl⟩ := hoccurs
  have hne : name ++ rest ≠ [] := List.append_ne_nil_of_left_ne_nil h.ne_nil rest
  by_cases hfront : front = []
  · rw [hfront, List.nil_append]
    refine h.eq_of_isPrefix ?_ (List.prefix_append name rest)
    rwa [hfront, List.nil_append] at hother
  · obtain ⟨-, w', -, hw, -, hopen, -⟩ :=
      hother.exists_parts (List.append_assoc ..) hfront hne
    obtain ⟨inner, rfl, -⟩ := h
    have hmem : '[' ∈ w' ++ [']'] := hw ▸ List.mem_append_left rest List.mem_cons_self
    exact absurd (List.mem_append.1 hmem) (not_or.2 ⟨hopen, by decide⟩)

theorem IsBracketed.not_prefix_append {name other u w : List Char} (h : IsBracketed name)
    (hother : IsBracketed other) (hname : name = u ++ w) (hu : u ≠ []) (hw : w ≠ [])
    (rest : List Char) : ¬ w <+: other ++ rest := by
  obtain ⟨-, w', -, rfl, -, hopen, -⟩ := h.exists_parts hname hu hw
  obtain ⟨inner, rfl, -⟩ := hother
  rintro ⟨after, hafter⟩
  cases w' with
  | nil => exact absurd (List.cons.inj hafter).1 (by decide)
  | cons d w' => exact hopen ((List.cons.inj hafter).1 ▸ List.mem_cons_self)

theorem IsBracketed.not_suffix {name other u w : List Char} (h : IsBracketed name)
    (hother : IsBracketed other) (hname : name = u ++ w) (hu : u ≠ []) (hw : w ≠ []) :
    ¬ u <:+ other := by
  obtain ⟨u', -, rfl, -, ⟨-, hclose⟩, -⟩ := h.exists_parts hname hu hw
  obtain ⟨inner, rfl, -⟩ := hother
  rintro ⟨before, hbefore⟩
  obtain ⟨v, d, hv⟩ := (List.eq_nil_or_concat' ('[' :: u')).resolve_left hu
  rw [hv, ← List.append_assoc, ← List.cons_append] at hbefore
  obtain rfl := (List.cons.inj (List.append_inj' hbefore rfl).2).1
  have hmem : ']' ∈ '[' :: u' := hv ▸ List.mem_append_right v List.mem_cons_self
  exact absurd (List.mem_cons.1 hmem) (not_or.2 ⟨by decide, hclose⟩)

/-! ## 2. Values and names -/

/-- Whether a name can begin inside a value. -/
def CanBegin (name value : List Char) : Prop :=
  ∃ s ∈ value.tails, s ≠ [] ∧ (name <+: s ∨ s <+: name)

/-- Whether a name that begins before a value can go on into it. -/
def CanGoOn (name value : List Char) : Prop :=
  ∃ w ∈ name.tail.tails, w ≠ [] ∧ (w <+: value ∨ value <+: w)

instance (name value : List Char) : Decidable (CanBegin name value) :=
  inferInstanceAs (Decidable (∃ s ∈ value.tails, _))

instance (name value : List Char) : Decidable (CanGoOn name value) :=
  inferInstanceAs (Decidable (∃ w ∈ name.tail.tails, _))

/-- Whether no part of a value can be a part of a name, whatever stands around the value. -/
structure Inert (name value : List Char) : Prop where
  not_begin : ¬ CanBegin name value
  not_go_on : ¬ CanGoOn name value

instance (name value : List Char) : Decidable (Inert name value) :=
  decidable_of_iff (¬ CanBegin name value ∧ ¬ CanGoOn name value)
    ⟨fun h => ⟨h.1, h.2⟩, fun h => ⟨h.1, h.2⟩⟩

theorem not_infix_of_not_canBegin {name value : List Char} (hne : name ≠ [])
    (h : ¬ CanBegin name value) : ¬ name <:+: value := by
  rw [List.infix_iff_prefix_suffix]
  rintro ⟨s, hstarts, hsuffix⟩
  exact h ⟨s, (List.mem_tails ..).2 hsuffix, hstarts.ne_nil hne, .inl hstarts⟩

theorem canGoOn_iff {name value : List Char} :
    CanGoOn name value ↔
      ∃ u w, name = u ++ w ∧ u ≠ [] ∧ w ≠ [] ∧ (w <+: value ∨ value <+: w) := by
  constructor
  · rintro ⟨w, hw, hne, hcomparable⟩
    obtain ⟨between, hbetween⟩ := (List.mem_tails ..).1 hw
    cases name with
    | nil => exact absurd (List.append_eq_nil_iff.1 hbetween).2 hne
    | cons c tail =>
      exact ⟨c :: between, w, congrArg (c :: ·) hbetween.symm, List.cons_ne_nil _ _, hne,
        hcomparable⟩
  · rintro ⟨u, w, rfl, hu, hw, hcomparable⟩
    refine ⟨w, (List.mem_tails ..).2 ?_, hw, hcomparable⟩
    rw [List.tail_append_of_ne_nil hu]
    exact List.suffix_append _ _

/-- Names around an inert value are names before or behind it. -/
theorem Inert.infix_or_infix {name value : List Char} (h : Inert name value) (hne : name ≠ [])
    {front rest : List Char} (hoccurs : name <:+: front ++ (value ++ rest)) :
    name <:+: front ∨ name <:+: rest := by
  have hbehind (hoccurs : name <:+: value ++ rest) : name <:+: rest := by
    rcases List.infix_append_iff.1 hoccurs with hvalue | hrest | ⟨u, w, rfl, hu, hw⟩
    · exact absurd hvalue (not_infix_of_not_canBegin hne h.not_begin)
    · exact hrest
    · by_cases hnil : u = []
      · rw [hnil]
        exact hw.isInfix
      · exact absurd ⟨u, (List.mem_tails ..).2 hu, hnil, .inr (List.prefix_append u w)⟩ h.not_begin
  rcases List.infix_append_iff.1 hoccurs with hfront | hvalue | ⟨u, w, rfl, hu, hw⟩
  · exact .inl hfront
  · exact .inr (hbehind hvalue)
  · by_cases hunil : u = []
    · exact .inr (hbehind (hunil ▸ hw.isInfix))
    · by_cases hwnil : w = []
      · rw [hwnil, List.append_nil]
        exact .inl hu.isInfix
      · exact absurd (canGoOn_iff.2 ⟨u, w, rfl, hunil, hwnil,
          List.prefix_or_prefix_of_prefix hw (List.prefix_append value rest)⟩) h.not_go_on

theorem IsBracketed.not_infix_around {name value front rest : List Char} (hname : IsBracketed name)
    (h : Inert name value) (hfront : ']' ∉ front) (hrest : '[' ∉ rest) :
    ¬ name <:+: front ++ (value ++ rest) := by
  intro hoccurs
  have hsides := h.infix_or_infix hname.ne_nil hoccurs
  obtain ⟨inner, rfl, -⟩ := hname
  rcases hsides with hin | hin
  · exact hfront (hin.subset (List.mem_cons_of_mem _ (List.mem_append_right _ List.mem_cons_self)))
  · exact hrest (hin.subset List.mem_cons_self)

/-- A value that is not inert makes a name with the right texts around it. -/
theorem IsBracketed.exists_around {name value : List Char} (hname : IsBracketed name)
    (h : ¬ Inert name value) :
    ∃ front rest, ']' ∉ front ∧ '[' ∉ rest ∧ name <:+: front ++ (value ++ rest) := by
  by_cases hbegin : CanBegin name value
  · obtain ⟨s, hs, hne, hstarts⟩ := hbegin
    obtain ⟨before, rfl⟩ := (List.mem_tails ..).1 hs
    rcases hstarts with hstarts | ⟨rest, rfl⟩
    · refine ⟨[], [], List.not_mem_nil, List.not_mem_nil, ?_⟩
      rw [List.nil_append, List.append_nil]
      exact hstarts.isInfix.trans (List.suffix_append before s).isInfix
    · refine ⟨[], rest, List.not_mem_nil, ?_, before, [], by simp⟩
      by_cases hnil : rest = []
      · rw [hnil]
        exact List.not_mem_nil
      · obtain ⟨-, w', -, rfl, -, hopen, -⟩ := hname.exists_parts rfl hne hnil
        simpa using hopen
  · have hgo : CanGoOn name value := by_contra fun hgo => h ⟨hbegin, hgo⟩
    obtain ⟨u, w, rfl, hu, hw, hstarts⟩ := canGoOn_iff.1 hgo
    obtain ⟨u', w', rfl, hw', ⟨-, hclose⟩, hopen, -⟩ := hname.exists_parts rfl hu hw
    have hopen : '[' ∉ w := by simpa [hw'] using hopen
    have hclose : ']' ∉ '[' :: u' := by simpa using hclose
    rcases hstarts with hstarts | ⟨rest, rfl⟩
    · refine ⟨'[' :: u', [], hclose, List.not_mem_nil, ?_⟩
      rw [List.append_nil]
      exact ((List.prefix_append_right_inj _).2 hstarts).isInfix
    · refine ⟨'[' :: u', rest, hclose, fun hmem => hopen (List.mem_append_right value hmem), ?_⟩
      exact List.infix_rfl

/-! ## 3. Flat texts -/

def readBracket (isOpen : Bool) (c : Char) : Option Bool :=
  if c = '[' then (if isOpen then none else some true)
  else if c = ']' then some false
  else some isOpen

/-- Whether no bracket is opened in a text while another one is open. -/
def IsFlat (text : List Char) : Prop := (text.foldlM readBracket false).isSome

instance (text : List Char) : Decidable (IsFlat text) :=
  inferInstanceAs (Decidable ((text.foldlM readBracket false).isSome = true))

theorem foldlM_readBracket_of_plain {text : List Char} (hopen : '[' ∉ text) (hclose : ']' ∉ text)
    (isOpen : Bool) : text.foldlM readBracket isOpen = some isOpen := by
  induction text with
  | nil => rfl
  | cons c text ih =>
    rw [List.mem_cons, not_or] at hopen hclose
    have hstep : readBracket isOpen c = some isOpen := by
      rw [readBracket, if_neg (Ne.symm hopen.1), if_neg (Ne.symm hclose.1)]
    rw [List.foldlM_cons, hstep]
    exact ih hopen.2 hclose.2

theorem IsBracketed.foldlM_readBracket {name : List Char} (h : IsBracketed name) (isOpen : Bool) :
    name.foldlM readBracket isOpen = if isOpen then none else some false := by
  obtain ⟨inner, rfl, hopen, hclose⟩ := h
  cases isOpen with
  | true => rfl
  | false =>
    show List.foldlM readBracket true (inner ++ [']']) = some false
    rw [List.foldlM_append, foldlM_readBracket_of_plain hopen hclose]
    rfl

/-- In a flat text no part of a name stands before a name. -/
theorem IsFlat.not_infix {name other u w text : List Char} (h : IsFlat text)
    (hname : IsBracketed name) (hother : IsBracketed other) (hparts : name = u ++ w) (hu : u ≠ [])
    (hw : w ≠ []) : ¬ u ++ other <:+: text := by
  rintro ⟨front, rest, rfl⟩
  obtain ⟨u', -, rfl, -, ⟨hopen, hclose⟩, -⟩ := hname.exists_parts hparts hu hw
  have hpart (isOpen : Bool) : ('[' :: u' ++ other).foldlM readBracket isOpen = none := by
    cases isOpen with
    | true => rfl
    | false =>
      show (u' ++ other).foldlM readBracket true = none
      rw [List.foldlM_append, foldlM_readBracket_of_plain hopen hclose]
      exact hother.foldlM_readBracket true
  rw [IsFlat, List.foldlM_append, List.foldlM_append] at h
  cases hfront : front.foldlM readBracket false with
  | none =>
    rw [hfront] at h
    cases h
  | some isOpen =>
    rw [hfront] at h
    change ((('[' :: u' ++ other).foldlM readBracket isOpen).bind _).isSome at h
    rw [hpart] at h
    cases h

end BuildSteps.Text
