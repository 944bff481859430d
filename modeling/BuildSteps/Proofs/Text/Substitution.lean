import Mathlib.Data.List.Find
import Mathlib.Data.List.Nodup
import BuildSteps.Proofs.Text.Bracketed
import BuildSteps.Proofs.Text.Replace

/-!
# Substitution

The replacement of several texts at once, and when it is the same to replace them one after the
other. The texts are names in square brackets, so it makes no difference which of them is looked for
first; only a replacement can bring in a part of a name that is replaced later.
-/

namespace BuildSteps.Text

/-! ## 1. Replacement at once -/

/-- Replaces several patterns from left to right, each occurrence by what the first pattern of the
list that stands there is replaced by; the first `skip` characters belong to an occurrence that has
been replaced already and are dropped. -/
def replaceAllFrom (replacements : List (List Char × List Char)) : Nat → List Char → List Char
  | _, [] => []
  | skip + 1, _ :: rest => replaceAllFrom replacements skip rest
  | 0, c :: rest =>
    match replacements.find? fun r => r.1.isPrefixOf (c :: rest) with
    | some r => r.2 ++ replaceAllFrom replacements (r.1.length - 1) rest
    | none => c :: replaceAllFrom replacements 0 rest

variable {replacements : List (List Char × List Char)} {pattern replacement : List Char}

-- the characters of an occurrence are dropped
theorem replaceAllFrom_length (front rest : List Char) :
    replaceAllFrom replacements front.length (front ++ rest) =
      replaceAllFrom replacements 0 rest := by
  induction front with
  | nil => rfl
  | cons c front ih => exact ih

theorem replaceAllFrom_occurrence {rest : List Char} (hne : pattern ≠ [])
    (h : (replacements.find? fun r => r.1.isPrefixOf (pattern ++ rest)) =
      some (pattern, replacement)) :
    replaceAllFrom replacements 0 (pattern ++ rest) =
      replacement ++ replaceAllFrom replacements 0 rest := by
  obtain ⟨c, tail, rfl⟩ := List.exists_cons_of_ne_nil hne
  rw [List.cons_append] at h ⊢
  rw [replaceAllFrom, h]
  exact congrArg (replacement ++ ·) (replaceAllFrom_length tail rest)

theorem replaceAllFrom_cons_of_none {c : Char} {text : List Char}
    (h : ∀ r ∈ replacements, ¬ r.1 <+: c :: text) :
    replaceAllFrom replacements 0 (c :: text) = c :: replaceAllFrom replacements 0 text := by
  rw [replaceAllFrom, List.find?_eq_none.2 fun r hr => mt List.isPrefixOf_iff_prefix.1 (h r hr)]

theorem replaceAllFrom_of_forall_absent {text : List Char}
    (h : ∀ r ∈ replacements, ¬ r.1 <:+: text) : replaceAllFrom replacements 0 text = text := by
  induction text with
  | nil => rfl
  | cons c text ih =>
    rw [replaceAllFrom_cons_of_none fun r hr hstarts => h r hr hstarts.isInfix,
      ih fun r hr hoccurs => h r hr (List.infix_cons hoccurs)]

theorem replaceAllFrom_cons_of_absent {text : List Char} (h : ¬ pattern <:+: text) (skip : Nat) :
    replaceAllFrom ((pattern, replacement) :: replacements) skip text =
      replaceAllFrom replacements skip text := by
  induction text generalizing skip with
  | nil => cases skip <;> rfl
  | cons c text ih =>
    rw [List.infix_cons_iff, not_or] at h
    cases skip with
    | succ skip => exact ih h.2 skip
    | zero =>
      have hfind := List.find?_cons_of_neg (l := replacements)
        (p := fun r : List Char × List Char => r.1.isPrefixOf (c :: text))
        (a := (pattern, replacement)) (mt List.isPrefixOf_iff_prefix.1 h.1)
      rw [replaceAllFrom, replaceAllFrom, hfind]
      cases replacements.find? fun r => r.1.isPrefixOf (c :: text) with
      | none => exact congrArg (c :: ·) (ih h.2 0)
      | some r => exact congrArg (r.2 ++ ·) (ih h.2 _)

/-- Two texts are replaced on their own where no pattern begins in the first one and goes on into
the second. The induction is on the first text; `skip` does not reach beyond it, because no
occurrence does. -/
theorem replaceAllFrom_append {front rest : List Char}
    (h : ∀ r ∈ replacements, ∀ u w, r.1 = u ++ w → u ≠ [] → w ≠ [] → u <:+ front → ¬ w <+: rest)
    {skip : Nat} (hskip : skip ≤ front.length) :
    replaceAllFrom replacements skip (front ++ rest) =
      replaceAllFrom replacements skip front ++ replaceAllFrom replacements 0 rest := by
  induction front generalizing skip with
  | nil =>
    obtain rfl := Nat.le_zero.1 hskip
    rfl
  | cons c front ih =>
    have ih {skip : Nat} := @ih (fun r hr u w hr' hu hw hfront =>
      h r hr u w hr' hu hw (hfront.trans (List.suffix_cons c front))) skip
    cases skip with
    | succ skip => exact ih (Nat.le_of_succ_le_succ hskip)
    | zero =>
      have hsame : (replacements.find? fun r => r.1.isPrefixOf (c :: (front ++ rest))) =
          replacements.find? fun r => r.1.isPrefixOf (c :: front) := by
        refine List.find?_congr fun r hr => ?_
        rw [Bool.eq_iff_iff, List.isPrefixOf_iff_prefix, List.isPrefixOf_iff_prefix,
          ← List.cons_append]
        refine ⟨?_, fun hstarts => hstarts.trans (List.prefix_append _ _)⟩
        rintro ⟨after, hafter⟩
        rcases List.append_eq_append_iff.1 hafter with ⟨between, hfront, -⟩ | ⟨w, hpattern, hrest⟩
        · exact ⟨between, hfront.symm⟩
        · by_cases hw : w = []
          · rw [hpattern, hw, List.append_nil]
          · exact absurd ⟨after, hrest.symm⟩
              (h r hr _ w hpattern (List.cons_ne_nil c front) hw List.suffix_rfl)
      rw [List.cons_append, replaceAllFrom, replaceAllFrom, hsame]
      cases hfind : replacements.find? fun r => r.1.isPrefixOf (c :: front) with
      | none => exact congrArg (c :: ·) (ih (Nat.zero_le _))
      | some r =>
        have hstarts : r.1.isPrefixOf (c :: front) = true :=
          List.find?_some (p := fun r : List Char × List Char => r.1.isPrefixOf (c :: front)) hfind
        have hlength := (List.isPrefixOf_iff_prefix.1 hstarts).length_le
        rw [List.length_cons] at hlength
        show r.2 ++ _ = (r.2 ++ _) ++ _
        rw [ih (by omega), List.append_assoc]

/-! ## 2. Names -/

structure IsTable (replacements : List (List Char × List Char)) : Prop where
  bracketed : ∀ r ∈ replacements, IsBracketed r.1
  nodup : (replacements.map Prod.fst).Nodup

theorem IsTable.filter (h : IsTable replacements) (p : List Char × List Char → Bool) :
    IsTable (replacements.filter p) where
  bracketed r hr := h.bracketed r (List.mem_filter.1 hr).1
  nodup := h.nodup.sublist (List.filter_sublist.map _)

theorem IsTable.replaceAllFrom_of_mem (h : IsTable replacements)
    (hmem : (pattern, replacement) ∈ replacements) (rest : List Char) :
    replaceAllFrom replacements 0 (pattern ++ rest) =
      replacement ++ replaceAllFrom replacements 0 rest := by
  have hname := h.bracketed _ hmem
  refine replaceAllFrom_occurrence hname.ne_nil ?_
  cases hfind : replacements.find? fun r => r.1.isPrefixOf (pattern ++ rest) with
  | none =>
    refine absurd ?_ (List.find?_eq_none.1 hfind _ hmem)
    exact List.isPrefixOf_iff_prefix.2 (List.prefix_append pattern rest)
  | some r =>
    have hr := List.mem_of_find?_eq_some hfind
    have hstarts : r.1.isPrefixOf (pattern ++ rest) = true :=
      List.find?_some (p := fun r : List Char × List Char => r.1.isPrefixOf (pattern ++ rest)) hfind
    have hsame : r.1 = pattern := by
      rcases List.prefix_or_prefix_of_prefix (List.isPrefixOf_iff_prefix.1 hstarts)
        (List.prefix_append pattern rest) with hle | hle
      · exact (h.bracketed r hr).eq_of_isPrefix hname hle
      · exact (hname.eq_of_isPrefix (h.bracketed r hr) hle).symm
    rw [List.inj_on_of_nodup_map h.nodup hr hmem hsame]

/-- A name that stands between texts without names is all that is replaced. -/
theorem IsTable.replaceAllFrom_around (h : IsTable replacements)
    (hmem : (pattern, replacement) ∈ replacements) {front rest : List Char} (hfront : ']' ∉ front)
    (hrest : '[' ∉ rest) :
    replaceAllFrom replacements 0 (front ++ (pattern ++ rest)) =
      front ++ (replacement ++ rest) := by
  rw [replaceAllFrom_append (fun r hr u w hname hu hw _ =>
    (h.bracketed r hr).not_prefix_append (h.bracketed _ hmem) hname hu hw rest) (Nat.zero_le _),
    h.replaceAllFrom_of_mem hmem, replaceAllFrom_of_forall_absent,
    replaceAllFrom_of_forall_absent]
  all_goals intro r hr hoccurs
  all_goals obtain ⟨inner, hinner, -⟩ := h.bracketed r hr
  · exact hrest (hoccurs.subset (hinner ▸ List.mem_cons_self))
  · refine hfront (hoccurs.subset (hinner ▸ List.mem_cons_of_mem _ ?_))
    exact List.mem_append_right inner List.mem_cons_self

theorem IsTable.replaceAllFrom_filter (h : IsTable replacements) : ∀ text,
    replaceAllFrom (replacements.filter fun r => r.2 ≠ r.1) 0 text =
      replaceAllFrom replacements 0 text
  | [] => rfl
  | c :: text => by
    have hfilter := h.filter fun r => r.2 ≠ r.1
    by_cases hname : ∃ r ∈ replacements, r.1 <+: c :: text
    · obtain ⟨⟨name, value⟩, hr, rest, hrest⟩ := hname
      have hshorter : rest.length < (c :: text).length := by
        have hpos := List.length_pos_of_ne_nil (h.bracketed _ hr).ne_nil
        rw [← hrest, List.length_append]
        omega
      have ih := h.replaceAllFrom_filter rest
      rw [← hrest, h.replaceAllFrom_of_mem hr, ← ih]
      by_cases hsame : value = name
      · subst hsame
        rw [replaceAllFrom_append (fun r hr' u w hname hu hw hsuffix _ =>
          (hfilter.bracketed r hr').not_suffix (h.bracketed _ hr) hname hu hw hsuffix)
          (Nat.zero_le _), replaceAllFrom_of_forall_absent]
        intro r hr' hoccurs
        obtain ⟨hr', hdiffers⟩ := List.mem_filter.1 hr'
        have heq := (h.bracketed r hr').eq_of_isInfix (h.bracketed _ hr) hoccurs
        rw [List.inj_on_of_nodup_map h.nodup hr' hr heq] at hdiffers
        simp at hdiffers
      · exact hfilter.replaceAllFrom_of_mem (List.mem_filter.2 ⟨hr, decide_eq_true hsame⟩) rest
    · push Not at hname
      rw [replaceAllFrom_cons_of_none hname,
        replaceAllFrom_cons_of_none fun r hr => hname r (List.mem_filter.1 hr).1,
        h.replaceAllFrom_filter text]
termination_by text => text.length
decreasing_by
  · exact hshorter
  · exact Nat.lt_succ_self _

/-! ## 3. One after the other -/

/-- The first name can be replaced before the others if they neither begin in its value nor begin
before it and go on into the value. -/
theorem replaceAllFrom_cons_eq (hpattern : IsBracketed pattern)
    (hnames : ∀ r ∈ replacements, IsBracketed r.1)
    (hbegin : ∀ r ∈ replacements, ¬ CanBegin r.1 replacement) (text : List Char) :
    (∀ r ∈ replacements, ∀ u w, r.1 = u ++ w → u ≠ [] → w ≠ [] →
      w <+: replacement ∨ replacement <+: w → ¬ u ++ pattern <:+: text) →
    replaceAllFrom ((pattern, replacement) :: replacements) 0 text =
      replaceAllFrom replacements 0 (replaceFrom pattern replacement 0 text) := by
  refine replaceFrom_induction (motive := fun text result =>
    (∀ r ∈ replacements, ∀ u w, r.1 = u ++ w → u ≠ [] → w ≠ [] →
      w <+: replacement ∨ replacement <+: w → ¬ u ++ pattern <:+: text) →
    replaceAllFrom ((pattern, replacement) :: replacements) 0 text =
      replaceAllFrom replacements 0 result) hpattern.ne_nil ?_ ?_ text
  · exact fun text habsent _ => replaceAllFrom_cons_of_absent habsent 0
  · intro front rest result hfront ih hgo
    have ih := ih fun r hr u w hname hu hw hcomparable hoccurs =>
      hgo r hr u w hname hu hw hcomparable
        (hoccurs.trans (List.append_assoc front pattern rest ▸ (List.suffix_append _ rest).isInfix))
    have hall : ∀ r ∈ (pattern, replacement) :: replacements, IsBracketed r.1 :=
      List.forall_mem_cons.2 ⟨hpattern, hnames⟩
    have hvalue : replaceAllFrom replacements 0 (replacement ++ result) =
        replacement ++ replaceAllFrom replacements 0 result := by
      rw [replaceAllFrom_append (fun r hr u w hname hu hw hsuffix _ => hbegin r hr
        ⟨u, (List.mem_tails ..).2 hsuffix, hu, .inr ⟨w, hname.symm⟩⟩) (Nat.zero_le _),
        replaceAllFrom_of_forall_absent fun r hr =>
          not_infix_of_not_canBegin (hnames r hr).ne_nil (hbegin r hr)]
    have hfind : ((pattern, replacement) :: replacements).find?
        (fun r => r.1.isPrefixOf (pattern ++ rest)) = some (pattern, replacement) :=
      List.find?_cons_of_pos (List.isPrefixOf_iff_prefix.2 (List.prefix_append pattern rest))
    calc replaceAllFrom ((pattern, replacement) :: replacements) 0 (front ++ (pattern ++ rest))
        = replaceAllFrom ((pattern, replacement) :: replacements) 0 front ++
            replaceAllFrom ((pattern, replacement) :: replacements) 0 (pattern ++ rest) :=
          replaceAllFrom_append (fun r hr u w hname hu hw _ =>
            (hall r hr).not_prefix_append hpattern hname hu hw rest) (Nat.zero_le _)
      _ = replaceAllFrom replacements 0 front ++
            (replacement ++ replaceAllFrom replacements 0 result) := by
          rw [replaceAllFrom_cons_of_absent hfront,
            replaceAllFrom_occurrence hpattern.ne_nil hfind, ih]
      _ = replaceAllFrom replacements 0 (front ++ (replacement ++ result)) := by
          rw [← hvalue, ← replaceAllFrom_append ?_ (Nat.zero_le _)]
          intro r hr u w hname hu hw hsuffix hstarts
          refine hgo r hr u w hname hu hw (List.prefix_or_prefix_of_prefix hstarts
            (List.prefix_append replacement result)) ?_
          obtain ⟨before, rfl⟩ := hsuffix
          exact ⟨before, rest, by simp only [List.append_assoc]⟩

def replaceEach (replacements : List (List Char × List Char)) (text : List Char) : List Char :=
  replacements.foldl (fun text r => replaceFrom r.1 r.2 0 text) text

theorem replaceEach_append (first second : List (List Char × List Char)) (text : List Char) :
    replaceEach (first ++ second) text = replaceEach second (replaceEach first text) :=
  List.foldl_append

/-- Values that are inert for the names of later replacements can be put in one after the other. -/
theorem replaceEach_eq_of_inert (hnames : ∀ r ∈ replacements, IsBracketed r.1)
    (hinert : replacements.Pairwise fun r later => Inert later.1 r.2) (text : List Char) :
    replaceEach replacements text = replaceAllFrom replacements 0 text := by
  induction replacements generalizing text with
  | nil => exact (replaceAllFrom_of_forall_absent fun _ hr => absurd hr List.not_mem_nil).symm
  | cons r replacements ih =>
    obtain ⟨hfirst, hinert⟩ := List.pairwise_cons.1 hinert
    obtain ⟨hname, hnames⟩ := List.forall_mem_cons.1 hnames
    have hbegin := fun later hlater => (hfirst later hlater).not_begin
    refine (ih hnames hinert _).trans (replaceAllFrom_cons_eq hname hnames hbegin text ?_).symm
    exact fun later hlater u w hparts hu hw hcomparable =>
      absurd (canGoOn_iff.2 ⟨u, w, hparts, hu, hw, hcomparable⟩) (hfirst later hlater).not_go_on

theorem replaceFrom_around (h : IsBracketed pattern) {front rest : List Char} (hfront : ']' ∉ front)
    (hrest : '[' ∉ rest) : replaceFrom pattern replacement 0 (front ++ (pattern ++ rest)) =
      front ++ (replacement ++ rest) := by
  have hnames : ∀ r ∈ [(pattern, replacement)], IsBracketed r.1 :=
    List.forall_mem_singleton.2 h
  have htable : IsTable [(pattern, replacement)] := ⟨hnames, List.nodup_singleton _⟩
  rw [← htable.replaceAllFrom_around List.mem_cons_self hfront hrest,
    ← replaceEach_eq_of_inert hnames (List.pairwise_singleton _ _)]
  rfl

theorem not_infix_replaceFrom {name text : List Char} (hname : name ≠ []) (hpattern : pattern ≠ [])
    (hinert : Inert name replacement) (h : ¬ name <:+: text ∨ name = pattern) :
    ¬ name <:+: replaceFrom pattern replacement 0 text := by
  refine replaceFrom_induction (motive := fun text result =>
    ¬ name <:+: text ∨ name = pattern → ¬ name <:+: result) hpattern ?_ ?_ text h
  · rintro text habsent (h | rfl)
    · exact h
    · exact habsent
  · intro front rest result hfront ih h hresult
    rcases hinert.infix_or_infix hname hresult with hresult | hresult
    · rcases h with h | rfl
      · exact h (hresult.trans (List.prefix_append _ _).isInfix)
      · exact hfront hresult
    · refine ih (h.imp_left fun h hrest => h (hrest.trans ?_)) hresult
      rw [← List.append_assoc]
      exact (List.suffix_append _ rest).isInfix

/-- A name that is replaced is gone, where the values put in from then on are inert for it. -/
theorem not_infix_replaceEach {name : List Char} (hname : name ≠ [])
    (hnames : ∀ r ∈ replacements, r.1 ≠ [])
    (hinert : ∀ r ∈ replacements, Inert name r.2) {text : List Char}
    (h : ¬ name <:+: text ∨ name ∈ replacements.map Prod.fst) :
    ¬ name <:+: replaceEach replacements text := by
  induction replacements generalizing text with
  | nil => exact h.resolve_right List.not_mem_nil
  | cons r replacements ih =>
    obtain ⟨hfirst, hinert⟩ := List.forall_mem_cons.1 hinert
    obtain ⟨hpattern, hnames⟩ := List.forall_mem_cons.1 hnames
    rw [List.map_cons, List.mem_cons] at h
    by_cases hrest : name ∈ replacements.map Prod.fst
    · exact ih hnames hinert (.inr hrest)
    · have hhere := h.imp_right fun hmem => hmem.resolve_right hrest
      exact ih hnames hinert (.inl (not_infix_replaceFrom hname hpattern hfirst hhere))

theorem replaceEach_of_forall_absent {text : List Char}
    (h : ∀ r ∈ replacements, ¬ r.1 <:+: text) : replaceEach replacements text = text := by
  induction replacements with
  | nil => rfl
  | cons r replacements ih =>
    obtain ⟨hfirst, h⟩ := List.forall_mem_cons.1 h
    show replaceEach replacements (replaceFrom r.1 r.2 0 text) = text
    rw [replaceFrom_of_absent hfirst, ih h]

theorem replaceEach_filter (hnames : ∀ r ∈ replacements, r.1 ≠ []) (text : List Char) :
    replaceEach (replacements.filter fun r => r.2 ≠ r.1) text = replaceEach replacements text := by
  induction replacements generalizing text with
  | nil => rfl
  | cons r replacements ih =>
    obtain ⟨hfirst, hnames⟩ := List.forall_mem_cons.1 hnames
    show _ = replaceEach replacements (replaceFrom r.1 r.2 0 text)
    by_cases hsame : r.2 = r.1
    · have hstep := (@replaceFrom_eq_self_iff r.1 r.2 hfirst text).2 (.inr hsame)
      rw [List.filter_cons_of_neg (by simp [hsame]), hstep, ih hnames]
    · rw [List.filter_cons_of_pos (by simp [hsame])]
      exact ih hnames _

/-- Values that are inert for the names of later replacements, save those that are replaced by
themselves, can be put in one after the other. -/
theorem IsTable.replaceEach_eq (h : IsTable replacements)
    (hinert : replacements.Pairwise fun r later => later.2 = later.1 ∨ Inert later.1 r.2)
    (text : List Char) : replaceEach replacements text = replaceAllFrom replacements 0 text := by
  have hnames := fun r hr => (h.bracketed r hr).ne_nil
  rw [← replaceEach_filter hnames, ← h.replaceAllFrom_filter]
  refine replaceEach_eq_of_inert (h.filter _).bracketed ?_ text
  rw [List.pairwise_filter]
  exact hinert.imp fun hinert _ hdiffers => hinert.resolve_left (of_decide_eq_true hdiffers)

theorem foldlM_readBracket_replaceFrom (hpattern : IsBracketed pattern) (hopen : '[' ∉ replacement)
    (hclose : ']' ∉ replacement) (text : List Char) : ∀ isOpen after,
    text.foldlM readBracket isOpen = some after →
      (replaceFrom pattern replacement 0 text).foldlM readBracket isOpen = some after := by
  refine replaceFrom_induction (motive := fun text result => ∀ isOpen after,
    text.foldlM readBracket isOpen = some after → result.foldlM readBracket isOpen = some after)
    hpattern.ne_nil (fun _ _ _ _ h => h) ?_ text
  intro front rest result _ ih isOpen after h
  rw [List.foldlM_append] at h ⊢
  cases hfront : front.foldlM readBracket isOpen with
  | none =>
    rw [hfront] at h
    cases h
  | some between =>
    rw [hfront] at h
    change (pattern ++ rest).foldlM readBracket between = some after at h
    show (replacement ++ result).foldlM readBracket between = some after
    rw [List.foldlM_append, hpattern.foldlM_readBracket] at h
    rw [List.foldlM_append, foldlM_readBracket_of_plain hopen hclose]
    cases between with
    | true => cases h
    | false => exact ih false after h

/-- Values without brackets can be put into flat texts one after the other. -/
theorem replaceEach_eq_of_isFlat (hnames : ∀ r ∈ replacements, IsBracketed r.1)
    (hplain : ∀ r ∈ replacements, '[' ∉ r.2 ∧ ']' ∉ r.2) {text : List Char} (h : IsFlat text) :
    replaceEach replacements text = replaceAllFrom replacements 0 text := by
  induction replacements generalizing text with
  | nil => exact (replaceAllFrom_of_forall_absent fun _ hr => absurd hr List.not_mem_nil).symm
  | cons r replacements ih =>
    obtain ⟨hname, hnames⟩ := List.forall_mem_cons.1 hnames
    obtain ⟨⟨hopen, hclose⟩, hplain⟩ := List.forall_mem_cons.1 hplain
    have hbegin : ∀ later ∈ replacements, ¬ CanBegin later.1 r.2 := by
      rintro later hlater ⟨s, hs, hne, hstarts⟩
      obtain ⟨inner, hinner, -⟩ := hnames later hlater
      refine hopen (((List.mem_tails ..).1 hs).subset ?_)
      rcases hstarts with ⟨more, rfl⟩ | ⟨more, hmore⟩
      · rw [hinner]
        exact List.mem_cons_self
      · obtain ⟨c, tail, rfl⟩ := List.exists_cons_of_ne_nil hne
        rw [hinner] at hmore
        exact (List.cons.inj hmore).1 ▸ List.mem_cons_self
    have hflat : IsFlat (replaceFrom r.1 r.2 0 text) := by
      obtain ⟨after, hafter⟩ := Option.isSome_iff_exists.1 h
      have hresult := foldlM_readBracket_replaceFrom hname hopen hclose text false after hafter
      exact Option.isSome_iff_exists.2 ⟨after, hresult⟩
    refine (ih hnames hplain hflat).trans (replaceAllFrom_cons_eq hname hnames hbegin text ?_).symm
    exact fun later hlater u w hparts hu hw _ =>
      h.not_infix (hnames later hlater) hname hparts hu hw

/-! ## 4. Texts -/

/-- Replaces several texts at once, from left to right. -/
def replaceAll (replacements : List (String × String)) (text : String) : String :=
  String.ofList
    (replaceAllFrom (replacements.map fun r => (r.1.toList, r.2.toList)) 0 text.toList)

theorem foldl_replace {replacements : List (String × String)} (hne : ∀ r ∈ replacements, r.1 ≠ "")
    (text : String) : replacements.foldl (fun text r => replace r.1 r.2 text) text =
      String.ofList
        (replaceEach (replacements.map fun r => (r.1.toList, r.2.toList)) text.toList) := by
  induction replacements generalizing text with
  | nil => exact String.ofList_toList.symm
  | cons r replacements ih =>
    obtain ⟨hfirst, hne⟩ := List.forall_mem_cons.1 hne
    rw [List.foldl_cons, ih hne, replace_eq hfirst, String.toList_ofList]
    rfl

end BuildSteps.Text
