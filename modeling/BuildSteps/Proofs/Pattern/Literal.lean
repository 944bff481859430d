import Mathlib.Data.List.Forall2
import Mathlib.Tactic.FinCases
import BuildSteps.Pattern.Parser

/-!
# Literal patterns

The pattern of an escaped text is the sequence of its characters. It occurs in a text where the
characters stand one after the other, whatever their case.
-/

namespace BuildSteps.Pattern

/-! ## 1. Reading escaped texts -/

def letterSet (c : Char) : CharSet :=
  if c.toNat < 128 ∧ !c.isAlpha then .single c else .caseless (.single c)

theorem literalSet?_initial (c : Char) :
    literalSet? Flags.initial c false = some (letterSet c) := by
  rw [literalSet?, letterSet, if_neg (by simp [Flags.initial])]
  split <;> rfl

def escapeChar (c : Char) : List Char := if isMeta c then ['\\', c] else [c]

theorem isMeta_iff {c : Char} : isMeta c = true ↔ c ∈ "\\.+*?()|[]\x7b\x7d^$#&-~".toList := by
  rw [isMeta, List.contains_iff_mem]

theorem readEscape?_of_isMeta {c : Char} (h : isMeta c = true) (rest : List Char) :
    readEscape? Flags.initial (c :: rest) = some (.literal c false, rest) := by
  have hmem : c ∈ ['\\', '.', '+', '*', '?', '(', ')', '|', '[', ']', '\x7b', '\x7d', '^', '$', '#',
      '&', '-', '~'] := isMeta_iff.1 h
  fin_cases hmem <;> rfl

theorem readAtom?_escapeChar (c : Char) (rest : List Char) :
    readAtom? Flags.initial (escapeChar c ++ rest) = some (.one (letterSet c), rest) := by
  unfold escapeChar
  split
  · next h =>
    show readAtom? Flags.initial ('\\' :: c :: rest) = _
    rw [readAtom?, readEscape?_of_isMeta h]
    show Option.map _ (Option.map _ (literalSet? Flags.initial c false)) = _
    rw [literalSet?_initial]
    rfl
  · next h =>
    have hne {special : Char} (hspecial : isMeta special = true) : c = special → False :=
      fun heq => h (heq ▸ hspecial)
    show readAtom? Flags.initial (c :: rest) = _
    rw [readAtom?, literalSet?_initial]
    · rfl
    all_goals exact hne (by decide)

def nonAtoms : List Char := ['(', '[', '?', '*', '+', '\x7b', '|', ')']

variable {flags : Flags} {n : Nat} {items : List Item} {names : List (List Char)} {c : Char}
  {text rest : List Char}

theorem readSequence?_atom {p : Pattern} (hblanks : flags.ignoreBlanks = false) (hc : c ∉ nonAtoms)
    (h : readAtom? flags (c :: text) = some (p, rest)) :
    readSequence? (n + 1) items ⟨flags, names, c :: text⟩ =
      readSequence? n (⟨p, 0, true⟩ :: items) ⟨flags, names, rest⟩ := by
  have hskip : skip flags (c :: text) = c :: text := by
    rw [skip, if_neg (by rw [hblanks]; decide)]
  have hne {special : Char} (hspecial : special ∈ nonAtoms) : c ≠ special :=
    fun heq => hc (heq ▸ hspecial)
  rw [readSequence?]
  simp only [hskip]
  split
  case h_1 heq => cases heq
  case h_8 heq =>
    obtain ⟨rfl, rfl⟩ := List.cons.inj heq
    rw [if_neg (not_or.2 ⟨hne (by decide), hne (by decide)⟩), h]
  all_goals
    next heq => exact absurd (List.cons.inj heq).1 (hne (by decide))

def letterItem (c : Char) : Item := ⟨.one (letterSet c), 0, true⟩

theorem readSequence?_escapeChar :
    readSequence? (n + 1) items ⟨Flags.initial, names, escapeChar c ++ rest⟩ =
      readSequence? n (letterItem c :: items) ⟨Flags.initial, names, rest⟩ := by
  have hatom := readAtom?_escapeChar c rest
  unfold escapeChar at hatom ⊢
  split at hatom
  · next h =>
    rw [if_pos h]
    exact readSequence?_atom rfl (by decide +kernel) hatom
  · next h =>
    have hmeta : nonAtoms.all isMeta = true := by decide
    rw [if_neg h]
    exact readSequence?_atom rfl (fun hc => h (List.all_eq_true.1 hmeta c hc)) hatom

theorem length_le_length_escape (name : List Char) :
    name.length ≤ (name.flatMap escapeChar).length := by
  induction name with
  | nil => exact Nat.le_refl 0
  | cons c name ih =>
    have hchar : 1 ≤ (escapeChar c).length := by
      unfold escapeChar
      split
      · exact Nat.le_add_left 1 1
      · exact Nat.le_refl 1
    rw [List.flatMap_cons, List.length_append, List.length_cons]
    omega

theorem readSequence?_escape (name : List Char) (hfuel : name.length < n) :
    readSequence? n items ⟨Flags.initial, names, name.flatMap escapeChar⟩ =
      some (sequenceOf (items.reverse ++ name.map letterItem), ⟨Flags.initial, names, []⟩) := by
  induction name generalizing n items with
  | nil =>
    obtain ⟨n, rfl⟩ := Nat.exists_eq_succ_of_ne_zero (Nat.ne_zero_of_lt hfuel)
    rw [List.map_nil, List.append_nil]
    rfl
  | cons c name ih =>
    obtain ⟨n, rfl⟩ := Nat.exists_eq_succ_of_ne_zero (Nat.ne_zero_of_lt hfuel)
    rw [List.flatMap_cons, readSequence?_escapeChar, ih (Nat.lt_of_succ_lt_succ hfuel),
      List.reverse_cons, List.append_assoc]
    rfl

/-! ## 2. Room and depth -/

theorem room_letterSet_le (c : Char) : (letterSet c).room ≤ 988 := by
  have hsingle : (CharSet.single c).spanCount = 1 ∧ (CharSet.single c).letterSpanCount ≤ 1 :=
    ⟨rfl, List.length_filter_le _ _⟩
  have hspans : (letterSet c).spanCount ≤ 2 := by
    unfold letterSet
    split
    · exact hsingle.1.trans_le (by decide)
    · show _ + _ ≤ 2
      omega
  unfold CharSet.room
  split <;> split <;> omega

theorem depth_sequenceOf_letterItem (name : List Char) :
    (sequenceOf (name.map letterItem)).depth ≤ 1 := by
  have hdepths : ((name.map letterItem).map (·.depth)).foldl max 0 = 0 := by
    induction name with
    | nil => rfl
    | cons c name ih => exact ih
  match name with
  | [] => decide
  | [c] => exact Nat.zero_le 1
  | _ :: _ :: _ => exact Nat.add_le_add_left hdepths.le 1

def letters (name : List Char) : Pattern :=
  name.foldr (fun c p => .sequence (.one (letterSet c)) p) .empty

theorem foldr_sequence_letterItem (name : List Char) :
    ((name.map letterItem).map (·.pattern)).foldr .sequence .empty = letters name := by
  rw [List.map_map, List.foldr_map]
  rfl

theorem room_letters_le (name : List Char) : (letters name).room ≤ 988 * name.length + 32 := by
  induction name with
  | nil => decide
  | cons c name ih =>
    show (letterSet c).room + (letters name).room ≤ 988 * (name.length + 1) + 32
    have hletter := room_letterSet_le c
    omega

theorem sequenceOf_letterItem (name : List Char) :
    (sequenceOf (name.map letterItem)).pattern.room ≤ (letters name).room ∧
      ∀ text positions, (sequenceOf (name.map letterItem)).pattern.reach text positions =
        (letters name).reach text positions := by
  match name with
  | [] => exact ⟨Nat.le_refl _, fun _ _ => rfl⟩
  | [c] => exact ⟨Nat.le_add_right _ _, fun _ _ => rfl⟩
  | c :: d :: rest =>
    have hletters := foldr_sequence_letterItem (c :: d :: rest)
    refine ⟨(congrArg room hletters).le, fun text positions => ?_⟩
    exact congrArg (fun p => p.reach text positions) hletters

/-! ## 3. Occurrences -/

/-- Whether a character of a name and a character of a text are the same where case does not count.
The characters of ASCII that are no letters have no case. -/
def SameLetter (c d : Char) : Prop :=
  d = c ∨ (128 ≤ c.toNat ∨ c.isAlpha = true) ∧ c.toNat ∈ Unicode.variants d.toNat

def Occurs (name text : String) : Prop :=
  ∃ before middle after, text.toList = before ++ (middle ++ after) ∧
    List.Forall₂ SameLetter name.toList middle

theorem contains_single {c : Char} {n : Nat} :
    (CharSet.single c).contains n = true ↔ n = c.toNat := by
  show Unicode.memberOf n [⟨c.toNat, c.toNat, 1⟩] = true ↔ _
  simp only [Unicode.memberOf, Unicode.Span.contains, Nat.mod_one, Bool.and_eq_true, Bool.or_false,
    decide_eq_true_eq, beq_self_eq_true, and_true]
  omega

theorem contains_letterSet {c d : Char} :
    (letterSet c).contains d.toNat = true ↔ SameLetter c d := by
  unfold letterSet SameLetter
  rw [← Char.toNat_inj (c := d)]
  split
  · next h =>
    rw [contains_single]
    refine ⟨.inl, fun hsame => hsame.resolve_right fun hcased => ?_⟩
    rcases hcased.1 with hbeyond | halpha
    · omega
    · simp [halpha] at h
  · next h =>
    have hcased : 128 ≤ c.toNat ∨ c.isAlpha = true := by
      by_cases halpha : c.isAlpha = true
      · exact .inr halpha
      · exact .inl (Nat.not_lt.1 fun hlt => h ⟨hlt, by simp [halpha]⟩)
    rw [CharSet.contains, Bool.or_eq_true, contains_single, List.any_eq_true]
    refine or_congr_right ⟨?_, fun hvariant => ⟨_, hvariant.2, contains_single.2 rfl⟩⟩
    rintro ⟨variant, hvariant, hc⟩
    exact ⟨hcased, contains_single.1 hc ▸ hvariant⟩

theorem length_ofText (before : Option Char) (text : List Char) :
    (Surroundings.ofText before text).length = text.length + 1 := by
  induction text generalizing before with
  | nil => rfl
  | cons c text ih => rw [Surroundings.ofText, List.length_cons, ih, List.length_cons]

theorem after_getElem?_ofText (before : Option Char) (text : List Char) (i : Nat) :
    ((Surroundings.ofText before text)[i]?).bind (·.after) = text[i]? := by
  induction text generalizing before i with
  | nil => cases i <;> rfl
  | cons c text ih =>
    cases i with
    | zero => rfl
    | succ i => exact ih (some c) i

variable {before : Option Char} {positions : List Bool}

theorem length_stepOver (set : CharSet) (h : positions.length = text.length + 1) :
    (stepOver set (Surroundings.ofText before text) positions).length = text.length + 1 := by
  rw [stepOver, List.length_cons, List.length_dropLast, List.length_zipWith, length_ofText, h,
    Nat.min_self, Nat.add_sub_cancel]

theorem getElem?_stepOver (set : CharSet) (h : positions.length = text.length + 1) (j : Nat) :
    (stepOver set (Surroundings.ofText before text) positions)[j]? = some true ↔
      ∃ i c, j = i + 1 ∧ positions[i]? = some true ∧ text[i]? = some c ∧
        set.contains c.toNat = true := by
  cases j with
  | zero => simp [stepOver]
  | succ j =>
    have hsame : (∃ i c, j + 1 = i + 1 ∧ positions[i]? = some true ∧ text[i]? = some c ∧
        set.contains c.toNat = true) ↔
          ∃ c, positions[j]? = some true ∧ text[j]? = some c ∧ set.contains c.toNat = true := by
      constructor
      · rintro ⟨i, c, hi, h⟩
        exact ⟨c, Nat.succ.inj hi ▸ h⟩
      · rintro ⟨c, h⟩
        exact ⟨j, c, rfl, h⟩
    rw [hsame, stepOver, List.getElem?_cons_succ, List.getElem?_dropLast, List.length_zipWith,
      length_ofText, h, Nat.min_self, Nat.add_sub_cancel]
    by_cases hj : j < text.length
    · have hpositions : positions[j]? = some positions[j] := List.getElem?_eq_getElem (by omega)
      have hlength : j < (Surroundings.ofText before text).length := by
        rw [length_ofText]
        omega
      have hsurroundings := List.getElem?_eq_getElem hlength
      have hafter := after_getElem?_ofText before text j
      rw [hsurroundings, Option.bind_some, List.getElem?_eq_getElem hj] at hafter
      rw [if_pos hj, List.getElem?_zipWith, hpositions, hsurroundings, List.getElem?_eq_getElem hj]
      simp [hafter]
    · rw [if_neg hj, List.getElem?_eq_none (Nat.not_lt.1 hj)]
      simp

/-- From each position that is given a name leads over the characters that it stands for. -/
theorem getElem?_letters (name : List Char) (h : positions.length = text.length + 1) (j : Nat) :
    ((letters name).reach (Surroundings.ofText before text) positions)[j]? = some true ↔
      ∃ i middle, positions[i]? = some true ∧ j = i + name.length ∧ middle <+: text.drop i ∧
        List.Forall₂ SameLetter name middle := by
  induction name generalizing positions with
  | nil =>
    constructor
    · exact fun hj => ⟨j, [], hj, rfl, List.nil_prefix, .nil⟩
    · rintro ⟨i, middle, hi, rfl, -⟩
      exact hi
  | cons c name ih =>
    have hstep : (letters (c :: name)).reach (Surroundings.ofText before text) positions =
        (letters name).reach (Surroundings.ofText before text)
          (stepOver (letterSet c) (Surroundings.ofText before text) positions) := rfl
    rw [hstep, ih (length_stepOver _ h)]
    constructor
    · rintro ⟨_, middle, hreached, rfl, hstands, hname⟩
      obtain ⟨i, d, rfl, hi, hd, hcontains⟩ := (getElem?_stepOver _ h _).1 hreached
      refine ⟨i, d :: middle, hi, by rw [List.length_cons]; omega, ?_,
        .cons (contains_letterSet.1 hcontains) hname⟩
      rw [List.drop_eq_getElem?_toList_append, hd]
      exact (List.prefix_cons_inj d).2 hstands
    · rintro ⟨i, middle, hi, rfl, hstands, hname⟩
      obtain ⟨d, middle, hletter, hrest, rfl⟩ := List.forall₂_cons_left_iff.1 hname
      obtain ⟨after, hafter⟩ := hstands
      have hd : text[i]? = some d := by
        rw [← List.head?_drop, ← hafter]
        rfl
      refine ⟨i + 1, middle, (getElem?_stepOver _ h _).2
        ⟨i, d, rfl, hi, hd, contains_letterSet.2 hletter⟩, by rw [List.length_cons]; omega,
        ⟨after, ?_⟩, hrest⟩
      rw [← List.drop_drop, ← hafter]
      rfl

theorem occursIn_letters {p : Pattern} {name text : String}
    (h : ∀ text positions, p.reach text positions = (letters name.toList).reach text positions) :
    p.occursIn text = true ↔ Occurs name text := by
  have hlength : ((Surroundings.ofText none text.toList).map fun _ => true).length =
      text.toList.length + 1 := by
    rw [List.length_map, length_ofText]
  rw [occursIn, h, List.any_eq_true]
  simp only [id_eq, exists_eq_right, List.mem_iff_getElem?]
  constructor
  · rintro ⟨j, hj⟩
    obtain ⟨i, middle, -, -, ⟨after, hafter⟩, hname⟩ := (getElem?_letters _ hlength j).1 hj
    refine ⟨text.toList.take i, middle, after, ?_, hname⟩
    rw [hafter, List.take_append_drop]
  · rintro ⟨front, middle, after, htext, hname⟩
    refine ⟨_, (getElem?_letters _ hlength _).2 ⟨front.length, middle, ?_, rfl, ⟨after, ?_⟩, hname⟩⟩
    · rw [List.getElem?_map, List.getElem?_eq_getElem, Option.map_some]
      rw [length_ofText, htext, List.length_append]
      omega
    · rw [htext, List.drop_left]

/-- An escaped name that is not too long is a pattern, and it occurs where the name does. -/
theorem ofText_escape {name : String} (h : 988 * name.toList.length + 32 ≤ roomLimit) :
    ∃ p, ofText (escape name) = .ok p ∧ ∀ text, p.occursIn text = true ↔ Occurs name text := by
  have hescape : (escape name).toList = name.toList.flatMap escapeChar := String.toList_ofList
  have hfuel : name.toList.length < 4 * (name.toList.flatMap escapeChar).length + 3 := by
    have hlength := length_le_length_escape name.toList
    omega
  have hread : readBranches? (4 * (escape name).toList.length + 4) []
      ⟨Flags.initial, [], (escape name).toList⟩ =
        some (sequenceOf (name.toList.map letterItem), ⟨Flags.initial, [], []⟩) := by
    rw [hescape, readBranches?, readSequence?_escape _ hfuel]
    rfl
  obtain ⟨hroom, hreach⟩ := sequenceOf_letterItem name.toList
  refine ⟨(sequenceOf (name.toList.map letterItem)).pattern, ?_, fun _ => occursIn_letters hreach⟩
  have hdepth := depth_sequenceOf_letterItem name.toList
  have hletters := room_letters_le name.toList
  rw [ofText, hread]
  show (if depthLimit < _ then _ else if roomLimit < _ then _ else _) = _
  rw [if_neg, if_neg]
  · omega
  · unfold depthLimit
    omega

end BuildSteps.Pattern
