import Mathlib.Order.Lattice.Nat
import BuildSteps.Proofs.Dependency.Traversal

/-!
# The order of a depth-first walk

A node is reached along chains of nodes, each in the list of the one before it. Where two chains
part, the one that goes on with the earlier entry of the list is the earlier chain. A depth-first
walk comes to the nodes in the order of their earliest chains, whatever the lengths of the chains.
-/

namespace BuildSteps

/-! ## 1. Chains -/

section Chains

variable {α : Type}

/-- `Chain next start chain a`: the nodes of the chain, of which the first is in `start` and each
other in the list of the one before it; the last one is `a`. -/
inductive Chain (next : α → Option (List α)) : List α → List α → α → Prop
  | last {start : List α} {a : α} : a ∈ start → Chain next start [a] a
  | step {start below chain : List α} {a b : α} :
    a ∈ start → next a = some below → Chain next below chain b → Chain next start (a :: chain) b

/-- How many nodes a shortest chain to a node has. -/
noncomputable def distance (next : α → Option (List α)) (start : List α) (a : α) : ℕ :=
  sInf {n | ∃ chain, Chain next start chain a ∧ chain.length = n}

/-- A chain that comes to no node twice and to none of those in `seen`. -/
structure FreshChain (next : α → Option (List α)) (seen start chain : List α) (a : α) : Prop where
  links : Chain next start chain a
  distinct : chain.Nodup
  fresh : ∀ b ∈ chain, b ∉ seen

variable {next : α → Option (List α)} {seen start more below chain : List α} {a b : α}

namespace Chain

theorem mem_start (h : Chain next start chain a) : ∃ b ∈ chain, b ∈ start := by
  cases h with
  | last hmem => exact ⟨_, List.mem_cons_self, hmem⟩
  | step hmem => exact ⟨_, List.mem_cons_self, hmem⟩

theorem mono (h : Chain next start chain a) (hsub : start ⊆ more) : Chain next more chain a := by
  cases h with
  | last hmem => exact .last (hsub hmem)
  | step hmem hnext hchain => exact .step (hsub hmem) hnext hchain

theorem of_cons (h : Chain next (b :: start) chain a) (hb : b ∉ chain) :
    Chain next start chain a := by
  have hstart {c : α} {rest : List α} (hne : b ∉ c :: rest) (hmem : c ∈ b :: start) : c ∈ start :=
    (List.mem_cons.1 hmem).resolve_left fun heq => hne (heq ▸ List.mem_cons_self)
  cases h with
  | last hmem => exact .last (hstart hb hmem)
  | step hmem hnext hchain => exact .step (hstart hb hmem) hnext hchain

theorem distance_le (h : Chain next start chain a) : distance next start a ≤ chain.length :=
  Nat.sInf_le ⟨chain, h, rfl⟩

theorem length_pos (h : Chain next start chain a) : 0 < chain.length := by
  obtain ⟨b, hb, -⟩ := h.mem_start
  exact List.length_pos_of_mem hb

theorem distance_eq_one (h : a ∈ start) : distance next start a = 1 := by
  refine Nat.le_antisymm (Chain.last h).distance_le (le_csInf ⟨1, [a], .last h, rfl⟩ ?_)
  rintro _ ⟨chain, hchain, rfl⟩
  exact hchain.length_pos

/-- Only the nodes at the start are at the least distance. -/
theorem two_le_distance (h : Chain next start chain a) (hnot : a ∉ start) :
    2 ≤ distance next start a := by
  refine le_csInf ⟨_, chain, h, rfl⟩ ?_
  rintro _ ⟨other, hother, rfl⟩
  cases hother with
  | last hmem => exact absurd hmem hnot
  | step _ _ hrest => exact Nat.succ_le_succ hrest.length_pos

end Chain

namespace FreshChain

/-- What comes behind the first node of a chain avoids that node as well. -/
theorem cons_cases (h : FreshChain next seen start (b :: chain) a) (hne : a ≠ b) {below : List α}
    (hnext : next b = some below) : FreshChain next (seen ++ [b]) below chain a := by
  obtain ⟨hb, hdistinct⟩ := List.nodup_cons.1 h.distinct
  cases h.links with
  | last => exact absurd rfl hne
  | step _ hnext' hchain =>
    obtain rfl := Option.some.inj (hnext.symm.trans hnext')
    refine ⟨hchain, hdistinct, fun c hc hmem => ?_⟩
    rcases List.mem_append.1 hmem with hmem | hmem
    · exact h.fresh c (List.mem_cons_of_mem b hc) hmem
    · exact hb (List.mem_singleton.1 hmem ▸ hc)

theorem cons (h : FreshChain next (seen ++ [b]) below chain a) (hnew : b ∉ seen) (hb : b ∈ start)
    (hnext : next b = some below) : FreshChain next seen start (b :: chain) a where
  links := .step hb hnext h.links
  distinct := List.nodup_cons.2
    ⟨fun hmem => h.fresh b hmem (List.mem_append_right seen (List.mem_singleton_self b)), h.distinct⟩
  fresh := by
    intro c hc hmem
    rcases List.mem_cons.1 hc with rfl | hc
    · exact hnew hmem
    · exact h.fresh c hc (List.mem_append_left [b] hmem)

end FreshChain

namespace Preorder

variable {nodes visited : List α}

/-- A chain that comes to a visited node does not leave the visited ones again. -/
theorem last_mem (h : Preorder next seen nodes visited) (hchain : Chain next start chain a)
    (hfresh : ∀ b ∈ chain, b ∉ seen) (hb : b ∈ chain) (hvisited : b ∈ visited) : a ∈ visited := by
  induction hchain generalizing b with
  | last => exact List.mem_singleton.1 hb ▸ hvisited
  | @step start below chain c a hmem hnext hchain ih =>
    have hrest : ∀ b ∈ chain, b ∉ seen := fun b hb => hfresh b (List.mem_cons_of_mem c hb)
    rcases List.mem_cons.1 hb with rfl | hb
    -- what is behind the node is in its list, and so has been visited
    · obtain ⟨below', hnext', hsub⟩ := h.closed hvisited (hfresh b List.mem_cons_self)
      obtain rfl := Option.some.inj (hnext.symm.trans hnext')
      obtain ⟨first, hfirst, hlisted⟩ := hchain.mem_start
      exact ih hrest hfirst (hsub hlisted)
    · exact ih hrest hb hvisited

/-- A walk comes to a node along a chain of nodes that were new. -/
theorem exists_freshChain (h : Preorder next seen nodes visited) (ha : a ∈ visited)
    (hnew : a ∉ seen) : ∃ chain, FreshChain next seen nodes chain a := by
  induction h with
  | done => exact absurd ha hnew
  | again _ _ ih =>
    obtain ⟨chain, hchain⟩ := ih ha hnew
    exact ⟨chain, hchain.links.mono (List.subset_cons_self _ _), hchain.distinct, hchain.fresh⟩
  | @visit seen below between nodes visited b hb hnext hbelow _ ihbelow ihrest =>
    by_cases hbetween : a ∈ between
    · by_cases hab : a = b
      · subst hab
        exact ⟨[a], .last List.mem_cons_self, List.nodup_singleton a,
          fun c hc => List.mem_singleton.1 hc ▸ hnew⟩
      · obtain ⟨chain, hchain⟩ := ihbelow hbetween (by simp [hnew, hab])
        exact ⟨b :: chain, hchain.cons hb List.mem_cons_self hnext⟩
    · obtain ⟨chain, hchain⟩ := ihrest ha hbetween
      have hseen : seen ⊆ between := fun c hc =>
        hbelow.seen_prefix.subset (List.mem_append_left [b] hc)
      exact ⟨chain, hchain.links.mono (List.subset_cons_self _ _), hchain.distinct,
        fun c hc hmem => hchain.fresh c hc (hseen hmem)⟩

end Preorder

end Chains

/-! ## 2. The earlier of two chains -/

section Order

variable {α : Type} [DecidableEq α]

/-- Whether the first chain ends where the second one goes on, or goes on with an entry that stands
before that of the second one, in the list of the node where they part. -/
inductive Earlier (next : α → Option (List α)) : List α → List α → List α → Prop
  | ends {start chain : List α} {b : α} : Earlier next start [] (b :: chain)
  | parts {start chain other : List α} {a b : α} :
    start.idxOf a < start.idxOf b → Earlier next start (a :: chain) (b :: other)
  | along {start below chain other : List α} {a : α} :
    next a = some below → Earlier next below chain other →
      Earlier next start (a :: chain) (a :: other)

/-- Whether some chain to the first node is earlier than all chains to the second one; no node is
to be twice on a chain, nor one of those in `seen`. -/
def Precedes (next : α → Option (List α)) (seen start : List α) (a b : α) : Prop :=
  ∃ chain, FreshChain next seen start chain a ∧
    ∀ other, FreshChain next seen start other b → Earlier next start chain other

variable {next : α → Option (List α)} {seen between start below nodes chain other : List α}
  {a b c : α}

theorem Earlier.asymm (h : Earlier next start chain other) : ¬ Earlier next start other chain := by
  induction h with
  | ends => exact fun h => by cases h
  | parts hlt =>
    intro h
    cases h with
    | parts hlt' => exact Nat.lt_asymm hlt hlt'
    | along => exact Nat.lt_irrefl _ hlt
  | along hnext _ ih =>
    intro h
    cases h with
    | parts hlt => exact Nat.lt_irrefl _ hlt
    | along hnext' h =>
      obtain rfl := Option.some.inj (hnext.symm.trans hnext')
      exact ih h

/-- One more node at the start makes no difference to chains that do not come to it. -/
theorem Earlier.cons (h : Earlier next start chain other) (hchain : c ∉ chain) (hother : c ∉ other) :
    Earlier next (c :: start) chain other := by
  cases h with
  | ends => exact .ends
  | @parts _ chain other a b hlt =>
    have ha : c ≠ a := fun heq => hchain (heq ▸ List.mem_cons_self)
    have hb : c ≠ b := fun heq => hother (heq ▸ List.mem_cons_self)
    refine .parts ?_
    rw [List.idxOf_cons_ne _ ha, List.idxOf_cons_ne _ hb]
    exact Nat.succ_lt_succ hlt
  | along hnext h => exact .along hnext h

namespace Precedes

theorem asymm (h : Precedes next seen start a b) : ¬ Precedes next seen start b a := by
  rintro ⟨other, hother, hfirst'⟩
  obtain ⟨chain, hchain, hfirst⟩ := h
  exact (hfirst other hother).asymm (hfirst' chain hchain)

/-- Chains to nodes behind the first one of the list: none of them comes to what is visited before
its turn. -/
theorem cons (h : Precedes next between nodes a b) (hsub : seen ⊆ between) (hc : c ∈ between)
    (havoids : ∀ other, FreshChain next seen (c :: nodes) other b → ∀ d ∈ other, d ∉ between) :
    Precedes next seen (c :: nodes) a b := by
  obtain ⟨chain, hchain, hfirst⟩ := h
  refine ⟨chain, ⟨hchain.links.mono (List.subset_cons_self _ _), hchain.distinct,
    fun d hd hmem => hchain.fresh d hd (hsub hmem)⟩, fun other hother => ?_⟩
  have hfresh := havoids other hother
  have hnot : c ∉ other := fun hmem => hfresh c hmem hc
  exact (hfirst other ⟨hother.links.of_cons hnot, hother.distinct, hfresh⟩).cons
    (fun hmem => hchain.fresh c hmem hc) hnot

/-- A chain through the first node of the list is earlier than all that start elsewhere. -/
theorem of_visit (hchain : FreshChain next seen (c :: nodes) (c :: chain) a) (hb : b ≠ c)
    (hnext : next c = some below)
    (hfirst : ∀ other, FreshChain next (seen ++ [c]) below other b → Earlier next below chain other) :
    Precedes next seen (c :: nodes) a b := by
  refine ⟨c :: chain, hchain, fun other hother => ?_⟩
  match other, hother with
  | [], hother => cases hother.links
  | d :: other, hother =>
    by_cases hd : d = c
    · subst hd
      exact .along hnext (hfirst other (hother.cons_cases hb hnext))
    · refine .parts ?_
      rw [List.idxOf_cons_self, List.idxOf_cons_ne _ (Ne.symm hd)]
      exact Nat.succ_pos _

/-- The first node of the list comes before every other node. -/
theorem of_root (hc : c ∉ seen) (hnext : next c = some below) (hb : b ≠ c) :
    Precedes next seen (c :: nodes) c b := by
  have hchain : FreshChain next seen (c :: nodes) [c] c :=
    ⟨.last List.mem_cons_self, List.nodup_singleton c,
      fun d hd => List.eq_of_mem_singleton hd ▸ hc⟩
  refine of_visit hchain hb hnext fun other hother => ?_
  match other, hother with
  | [], hother => cases hother.links
  | _ :: _, _ => exact .ends

theorem of_below (h : Precedes next (seen ++ [c]) below a b) (hc : c ∉ seen)
    (hnext : next c = some below) (hb : b ≠ c) : Precedes next seen (c :: nodes) a b := by
  obtain ⟨chain, hchain, hfirst⟩ := h
  exact of_visit (hchain.cons hc List.mem_cons_self hnext) hb hnext hfirst

/-- What is visited below the first node of the list comes before all that is not: no chain goes
there through the first node. -/
theorem of_visited_below (hbelow : Preorder next (seen ++ [c]) below between) (hc : c ∉ seen)
    (hnext : next c = some below) (ha : a ∈ between) (hnew : a ∉ seen ++ [c]) (hb : b ∉ between) :
    Precedes next seen (c :: nodes) a b := by
  obtain ⟨chain, hchain⟩ := hbelow.exists_freshChain ha hnew
  have hne : b ≠ c := by
    rintro rfl
    exact hb (hbelow.seen_prefix.subset (List.mem_append_right seen (List.mem_singleton_self b)))
  refine of_visit (hchain.cons hc List.mem_cons_self hnext) hne hnext fun other hother => ?_
  obtain ⟨first, hfirst, hlisted⟩ := hother.links.mem_start
  exact absurd (hbelow.last_mem hother.links hother.fresh hfirst (hbelow.nodes_subset hlisted)) hb

end Precedes

/-- **A walk comes to the nodes in the order of their earliest chains.** -/
theorem Preorder.pairwise_precedes {visited added : List α}
    (h : Preorder next seen nodes visited) (hseen : seen.Nodup) (hvisited : visited = seen ++ added) :
    added.Pairwise (Precedes next seen nodes) := by
  induction h generalizing added with
  | done seen =>
    obtain rfl := List.self_eq_append_right.1 hvisited
    exact .nil
  | @again seen nodes visited c hc _ ih =>
    refine (ih hseen hvisited).imp fun hprecedes => ?_
    exact hprecedes.cons (List.Subset.refl _) hc fun other hother => hother.fresh
  | @visit seen below between nodes visited c hc hnext hbelow hrest ihbelow ihrest =>
    have hroot : Preorder next seen [c] between := .visit hc hnext hbelow (.done between)
    have hnodup : (seen ++ [c]).Nodup := List.nodup_append_comm.1 (List.nodup_cons.2 ⟨hc, hseen⟩)
    have hbetween : between.Nodup := hbelow.nodup hnodup
    obtain ⟨behind, rfl⟩ := hrest.seen_prefix
    have hbehind : ∀ b ∈ behind, b ∉ between := fun b hb hmem =>
      List.disjoint_of_nodup_append (hrest.nodup hbetween) hmem hb
    obtain ⟨inside, rfl⟩ := hbelow.seen_prefix
    have hinside : ∀ a ∈ inside, a ∉ seen ++ [c] := fun a ha hmem =>
      List.disjoint_of_nodup_append hbetween hmem ha
    obtain rfl : added = c :: (inside ++ behind) := by simpa using hvisited.symm
    have hne : ∀ b ∈ inside ++ behind, b ≠ c := by
      rintro b hb rfl
      rcases List.mem_append.1 hb with hb | hb
      · exact hinside b hb (by simp)
      · exact hbehind b hb (by simp)
    refine List.pairwise_cons.2 ⟨fun b hb => .of_root hc hnext (hne b hb),
      List.pairwise_append.2 ⟨?_, ?_, fun a ha b hb => ?_⟩⟩
    -- two nodes that are visited below the first one
    · refine (ihbelow hnodup rfl).imp_of_mem fun _ hb hprecedes => ?_
      exact hprecedes.of_below hc hnext (hne _ (List.mem_append_left behind hb))
    -- two nodes that are visited after it
    · refine (ihrest hbetween rfl).imp_of_mem fun _ hb hprecedes => ?_
      refine hprecedes.cons (fun d hd => by simp [hd]) (by simp) fun other hother d hd hmem => ?_
      exact hbehind _ hb (hroot.last_mem hother.links hother.fresh hd hmem)
    · exact .of_visited_below hbelow hc hnext (by simp [ha]) (hinside a ha) (hbehind b hb)

theorem of_idxOf_lt {order : α → α → Prop} {names : List α} (h : names.Pairwise order)
    (ha : a ∈ names) (hb : b ∈ names) (hlt : names.idxOf a < names.idxOf b) : order a b := by
  have hpair := List.pairwise_iff_getElem.1 h _ _ (List.idxOf_lt_length_of_mem ha)
    (List.idxOf_lt_length_of_mem hb) hlt
  rwa [List.getElem_idxOf, List.getElem_idxOf] at hpair

/-- Where the nodes of a list follow each other in an order that never holds both ways, their
positions show the order. -/
theorem idxOf_lt_iff_of_pairwise {order : α → α → Prop} {names : List α}
    (h : names.Pairwise order) (hasymm : ∀ a b, order a b → ¬ order b a) (ha : a ∈ names)
    (hb : b ∈ names) : names.idxOf a < names.idxOf b ↔ order a b := by
  refine ⟨of_idxOf_lt h ha hb, fun hab => ?_⟩
  rcases Nat.lt_trichotomy (names.idxOf a) (names.idxOf b) with hlt | heq | hlt
  · exact hlt
  · obtain rfl := (List.idxOf_inj ha).1 heq
    exact absurd hab (hasymm a a hab)
  · exact absurd hab (hasymm b a (of_idxOf_lt h hb ha hlt))

end Order

namespace Resolution

/-! ## 3. The order of the dependencies -/

theorem exists_indexOf?_of_dependenciesOf? {projects : List Project} {target : Target}
    {name : String} {below : List String} (h : dependenciesOf? projects target name = some below) :
    ∃ i, indexOf? projects name = some i := by
  obtain ⟨conf, hconf, -⟩ := Option.map_eq_some_iff.1 h
  cases hindex : indexOf? projects name with
  | none => exact absurd (configurationOf?_eq_some hconf).1 (indexOf?_eq_none hindex)
  | some i => exact ⟨i, rfl⟩

theorem map_some_positions {projects : List Project} {names : List String}
    (h : ∀ name ∈ names, ∃ i, indexOf? projects name = some i) :
    (positions projects names).map some = names.map (indexOf? projects) := by
  induction names with
  | nil => rfl
  | cons name names ih =>
    obtain ⟨⟨i, hi⟩, hnames⟩ := List.forall_mem_cons.1 h
    rw [positions_cons hi, List.map_cons, List.map_cons, hi, ih hnames]

theorem map_indexOf?_injective {projects : List Project} {names other : List String}
    (hother : ∀ name ∈ other, ∃ i, indexOf? projects name = some i)
    (h : names.map (indexOf? projects) = other.map (indexOf? projects)) : names = other := by
  induction names generalizing other with
  | nil => exact (List.map_eq_nil_iff.1 h.symm).symm
  | cons name names ih =>
    match other, hother with
    | [], _ => cases h
    | first :: rest, hother =>
      obtain ⟨⟨i, hi⟩, hrest⟩ := List.forall_mem_cons.1 hother
      obtain ⟨hfirst, hmap⟩ := List.cons.inj h
      rw [indexOf?_injective (hfirst.trans hi) hi, ih hrest hmap]

/-- **The order of the dependencies.** The projects that are found are those within reach, each
once, and one stands before another just when it has the earlier chain: how long the chains are does
not matter. So the nearest ones stand first only in graphs where the earlier chains go to the nearer
projects. -/
theorem transitiveDependencies_chainOrder {projects : List Project} {target : Target}
    {direct : List String} {indices : List Nat}
    (h : transitiveDependencies projects target direct = .ok indices) :
    ∃ names : List String, names.map (indexOf? projects) = indices.map some ∧ names.Nodup ∧
      (∀ name, name ∈ names ↔ Reachable (dependenciesOf? projects target) direct name) ∧
      (∀ a ∈ names, ∀ b ∈ names, names.idxOf a < names.idxOf b ↔
        Precedes (dependenciesOf? projects target) [] direct a b) ∧
      (names.Pairwise (fun a b => distance (dependenciesOf? projects target) direct a ≤
          distance (dependenciesOf? projects target) direct b) ↔
        ∀ a ∈ names, ∀ b ∈ names, Precedes (dependenciesOf? projects target) [] direct a b →
          distance (dependenciesOf? projects target) direct a ≤
            distance (dependenciesOf? projects target) direct b) := by
  obtain ⟨names, hwalk, rfl⟩ := preorder_of_transitiveDependencies h
  have hknown : ∀ name ∈ names, ∃ i, indexOf? projects name = some i := by
    intro name hname
    obtain ⟨below, hbelow, -⟩ := hwalk.closed hname List.not_mem_nil
    exact exists_indexOf?_of_dependenciesOf? hbelow
  have hpairwise := hwalk.pairwise_precedes List.nodup_nil (List.nil_append names).symm
  have horder {a b : String} (ha : a ∈ names) (hb : b ∈ names) :=
    idxOf_lt_iff_of_pairwise hpairwise (fun _ _ hprecedes => hprecedes.asymm) ha hb
  refine ⟨names, (map_some_positions hknown).symm, hwalk.nodup List.nodup_nil,
    fun name => hwalk.mem_iff_reachable, fun a ha b hb => horder ha hb, fun hnear => ?_,
    fun hnear => ?_⟩
  · intro a ha b hb hprecedes
    have hle := of_idxOf_lt hnear ha hb ((horder ha hb).2 hprecedes)
    exact hle
  · exact hpairwise.imp_of_mem fun ha hb hprecedes => hnear _ ha _ hb hprecedes

def forked : List Project :=
  let project (name : String) (dependencies : List String) : Project :=
    { Project.create name ⟨"/" ++ name⟩ with
      configurations := [{ Configuration.empty ⟨.win64, .vs2022, .debug⟩ with
        includePaths := [⟨"/" ++ name⟩], dependencies }] }
  [project "app" ["gui", "net"], project "gui" ["base"], project "net" [], project "base" []]

theorem transitiveDependencies_chainOrder_forked :
    transitiveDependencies forked ⟨.win64, .vs2022, .debug⟩ ["gui", "net"] = .ok [1, 3, 2] ∧
      Precedes (dependenciesOf? forked ⟨.win64, .vs2022, .debug⟩) [] ["gui", "net"] "base" "net" := by
  have h : transitiveDependencies forked ⟨.win64, .vs2022, .debug⟩ ["gui", "net"] =
      .ok [1, 3, 2] := by decide +kernel
  obtain ⟨names, hnames, -, -, horder, -⟩ := transitiveDependencies_chainOrder h
  have hmap : names.map (indexOf? forked) = ["gui", "base", "net"].map (indexOf? forked) :=
    hnames.trans (by decide +kernel)
  have hknown : ∀ name ∈ ["gui", "base", "net"], ∃ i, indexOf? forked name = some i := by
    simp only [← Option.isSome_iff_exists]
    decide +kernel
  obtain rfl := map_indexOf?_injective hknown hmap
  exact ⟨h, (horder "base" (by decide) "net" (by decide)).1 (by decide)⟩

/-- An indirect dependency stands before a direct one, and so do its include paths. -/
theorem transitiveDependencies_not_nearest_first :
    transitiveDependencies forked ⟨.win64, .vs2022, .debug⟩ ["gui", "net"] = .ok [1, 3, 2] ∧
      indexOf? forked "base" = some 3 ∧ indexOf? forked "net" = some 2 ∧
      distance (dependenciesOf? forked ⟨.win64, .vs2022, .debug⟩) ["gui", "net"] "base" = 2 ∧
      distance (dependenciesOf? forked ⟨.win64, .vs2022, .debug⟩) ["gui", "net"] "net" = 1 ∧
      ((resolveDependencies forked).2.head?.map fun project =>
          project.configurations.map (·.dependenciesIncludePaths)) =
        some [[⟨"/gui"⟩, ⟨"/base"⟩, ⟨"/net"⟩]] := by
  have hchain : Chain (dependenciesOf? forked ⟨.win64, .vs2022, .debug⟩) ["gui", "net"]
      ["gui", "base"] "base" :=
    .step (by decide) (by decide +kernel : _ = some ["base"]) (.last (by decide))
  exact ⟨by decide +kernel, by decide +kernel, by decide +kernel,
    Nat.le_antisymm hchain.distance_le (hchain.two_le_distance (by decide)),
    Chain.distance_eq_one (by decide), by decide +kernel⟩

end Resolution

end BuildSteps
