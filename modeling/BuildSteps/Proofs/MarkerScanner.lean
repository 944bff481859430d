import Mathlib.Data.List.Infix
import BuildSteps.MarkerScanner

/-!
# A scan is a search in the whole stream

The scanner never sees more of the past than its window. These lemmas show that it decides, however
the stream is cut into reads, whether a marker occurs anywhere in the bytes that the stream delivers
before it ends.
-/

namespace BuildSteps

variable {ε : Type}

namespace Delivery

/-- The bytes of a stream up to its end: a delivery of no bytes or a failure. -/
def delivered : List (Delivery ε) → List UInt8
  | [] => []
  | .interrupted :: rest => delivered rest
  | .failed _ :: _ => []
  | .bytes content :: rest => if content.isEmpty then [] else content ++ delivered rest

/-- How a stream ends: with a delivery of no bytes, as it also does when nothing is left of it, or
with an error. -/
def ending : List (Delivery ε) → Except ε Unit
  | [] => .ok ()
  | .interrupted :: rest => ending rest
  | .failed e :: _ => .error e
  | .bytes content :: rest => if content.isEmpty then .ok () else ending rest

end Delivery

namespace MarkerScanner

open Delivery

/-! ## 1. The window -/

/-- The length of no marker exceeds that of the carry by more than one. -/
theorem length_le_carryLength {s : MarkerScanner} {m : List UInt8} (h : m ∈ s.markers) :
    m.length ≤ s.carryLength + 1 := by
  have hle : ∀ (lengths : List Nat) (start : Nat),
      start ≤ lengths.foldl max start ∧ ∀ n ∈ lengths, n ≤ lengths.foldl max start := by
    intro lengths
    induction lengths with
    | nil => simp
    | cons n lengths ih =>
      intro start
      rw [List.foldl_cons]
      obtain ⟨hstart, hall⟩ := ih (max start n)
      refine ⟨by omega, fun k hk => ?_⟩
      rcases List.mem_cons.1 hk with rfl | hk
      · omega
      · exact hall k hk
  have hmax := (hle (s.markers.map List.length) 0).2 m.length (List.mem_map_of_mem h)
  unfold carryLength
  omega

/-- Cutting before or after more bytes arrive leaves the same end. -/
theorem carry_carry_append (s : MarkerScanner) (past content : List UInt8) :
    s.carry (s.carry past ++ content) = s.carry (past ++ content) := by
  unfold carry
  rw [← List.drop_append_of_le_length (show past.length - s.carryLength ≤ past.length by omega),
    List.drop_drop]
  congr 1
  simp only [List.length_drop, List.length_append]
  omega

/-- An occurrence that `past` alone does not hold lies within the carry and the new bytes. -/
theorem infix_carry_append {s : MarkerScanner} {m past content : List UInt8} (h : m ∈ s.markers)
    (hnot : ¬ m <:+: past) : m <:+: s.carry past ++ content ↔ m <:+: past ++ content := by
  unfold carry
  rw [← List.drop_append_of_le_length (show past.length - s.carryLength ≤ past.length by omega)]
  constructor
  · exact fun hin => hin.trans (List.drop_suffix _ _).isInfix
  · rintro ⟨pre, post, heq⟩
    have hlen := congrArg List.length heq
    simp only [List.length_append] at hlen
    have hm := length_le_carryLength h
    by_cases hpost : content.length ≤ post.length
    · -- the occurrence ends before the new bytes start
      refine absurd ?_ hnot
      have hwhole : (pre ++ m).take past.length = pre ++ m := by
        rw [List.take_of_length_le (by rw [List.length_append]; omega)]
      have hpast : pre ++ m ++ post.take (past.length - (pre ++ m).length) = past := by
        have htake : (pre ++ m ++ post).take past.length = past := by rw [heq, List.take_left]
        rw [List.take_append, hwhole] at htake
        exact htake
      exact ⟨pre, _, hpast⟩
    -- it reaches into the new bytes, so that it starts inside the carry
    · rw [← heq, List.append_assoc, List.drop_append_of_le_length (by omega)]
      exact ⟨pre.drop (past.length - s.carryLength), post, by rw [List.append_assoc]⟩

theorem containsMarker_iff {s : MarkerScanner} {bytes : List UInt8} :
    s.containsMarker bytes = true ↔ ∃ m ∈ s.markers, m <:+: bytes := by
  simp only [containsMarker, List.any_eq_true, Text.occursIn_iff]

/-- Once the past holds no marker, the window shows whether the past and the new bytes do. -/
theorem containsMarker_carry_append {s : MarkerScanner} {past content : List UInt8}
    (hnone : s.containsMarker past = false) :
    s.containsMarker (s.carry past ++ content) = s.containsMarker (past ++ content) := by
  rw [Bool.eq_iff_iff, containsMarker_iff, containsMarker_iff]
  -- `infix_carry_append` holds for markers that the past does not hold
  have hnot : ∀ m ∈ s.markers, ¬ m <:+: past := by
    intro m hm hin
    rw [containsMarker_iff.2 ⟨m, hm, hin⟩] at hnone
    cases hnone
  exact ⟨fun ⟨m, hm, hin⟩ => ⟨m, hm, (infix_carry_append hm (hnot m hm)).1 hin⟩,
    fun ⟨m, hm, hin⟩ => ⟨m, hm, (infix_carry_append hm (hnot m hm)).2 hin⟩⟩

theorem containsMarker_append {s : MarkerScanner} {past : List UInt8} (content : List UInt8)
    (h : s.containsMarker past = true) : s.containsMarker (past ++ content) = true := by
  obtain ⟨m, hm, hin⟩ := containsMarker_iff.1 h
  exact containsMarker_iff.2 ⟨m, hm, hin.trans (List.prefix_append _ _).isInfix⟩

/-! ## 2. The loop -/

/-- A round in which bytes arrive shows whether all bytes so far hold a marker: the invariant is that
the window holds the end of those delivered before. -/
theorem round_bytes {s : MarkerScanner} {past content : List UInt8}
    (hnone : s.containsMarker past = false) (hsome : ¬ content.isEmpty = true) :
    s.round (s.carry past) (.bytes content : Delivery ε) =
      if s.containsMarker (past ++ content) then .answer (.ok true)
      else .more (s.carry (past ++ content)) := by
  rw [round, if_neg hsome, containsMarker_carry_append hnone, carry_carry_append]

/-- The answer of a scan once no marker was found in the bytes delivered before. -/
theorem scanFrom_carry (s : MarkerScanner) {past : List UInt8}
    (hnone : s.containsMarker past = false) (ds : List (Delivery ε)) :
    (s.scanFrom (s.carry past) ds).1 =
      if s.containsMarker (past ++ delivered ds) then .ok true
      else (ending ds).map fun _ => false := by
  induction ds generalizing past with
  | nil => simp [scanFrom, delivered, ending, hnone, Except.map]
  | cons d rest ih =>
    match d with
    | .interrupted =>
      rw [scanFrom, delivered, ending]
      exact ih hnone
    | .failed e => simp [scanFrom, round, delivered, ending, hnone, Except.map]
    | .bytes content =>
      by_cases hempty : content.isEmpty = true
      · simp [scanFrom, round, delivered, ending, hempty, hnone, Except.map]
      · rw [scanFrom, round_bytes hnone hempty, delivered, if_neg hempty, ending, if_neg hempty,
          ← List.append_assoc]
        -- found now, and so in all that is delivered; or the invariant goes on with a longer past
        by_cases hfound : s.containsMarker (past ++ content) = true
        · rw [if_pos hfound, if_pos (containsMarker_append _ hfound)]
        · rw [if_neg hfound]
          exact ih (Bool.eq_false_iff.2 hfound)

/-! ## 3. Reads -/

theorem flatten_chunks {size : Nat} (hsize : 0 < size) {count : Nat} {bytes : List UInt8}
    (h : bytes.length ≤ count) : (chunks size count bytes).flatten = bytes := by
  induction count generalizing bytes with
  | zero => rw [List.eq_nil_of_length_eq_zero (Nat.le_zero.1 h)]; rfl
  | succ count ih =>
    rw [chunks]
    split
    · next hempty => rw [List.isEmpty_iff.1 hempty]; rfl
    · next hempty =>
      have hne : bytes.length ≠ 0 := fun h0 => hempty (by simp [List.eq_nil_of_length_eq_zero h0])
      -- a chunk has a byte, so that the rest fits into one chunk less
      rw [List.flatten_cons, ih (by rw [List.length_drop]; omega), List.take_append_drop]

theorem ne_nil_of_mem_chunks {size : Nat} (hsize : 0 < size) {count : Nat} {bytes c : List UInt8}
    (h : c ∈ chunks size count bytes) : c ≠ [] := by
  induction count generalizing bytes with
  | zero => cases h
  | succ count ih =>
    rw [chunks] at h
    split at h
    · cases h
    · next hempty =>
      rcases List.mem_cons.1 h with rfl | h
      · rw [ne_eq, List.take_eq_nil_iff]
        rintro (h0 | hnil)
        · omega
        · exact hempty (by rw [hnil]; rfl)
      · exact ih h

/-- Nonempty reads in front of a stream only add their bytes to it. -/
theorem delivered_bytes_append {contents : List (List UInt8)} (hne : ∀ c ∈ contents, c ≠ [])
    (rest : List (Delivery ε)) :
    delivered (contents.map .bytes ++ rest) = contents.flatten ++ delivered rest ∧
      ending (contents.map .bytes ++ rest) = ending rest := by
  induction contents with
  | nil => exact ⟨rfl, rfl⟩
  | cons c contents ih =>
    have hc : ¬ c.isEmpty = true := fun h => hne c List.mem_cons_self (List.isEmpty_iff.1 h)
    obtain ⟨hbytes, hend⟩ := ih fun c hmem => hne c (List.mem_cons_of_mem _ hmem)
    rw [List.map_cons, List.cons_append, delivered, ending, if_neg hc, if_neg hc, hbytes, hend,
      List.flatten_cons, List.append_assoc]
    exact ⟨rfl, rfl⟩

theorem delivered_deliveries {s : MarkerScanner} (hsize : 0 < s.chunkSize)
    (waiting : List (Delivery ε)) :
    delivered (s.deliveries waiting) = delivered waiting ∧
      ending (s.deliveries waiting) = ending waiting := by
  induction waiting with
  | nil => exact ⟨rfl, rfl⟩
  | cons d rest ih =>
    unfold deliveries at ih ⊢
    rw [List.flatMap_cons]
    match d with
    | .interrupted => exact ih
    | .failed e => exact ⟨rfl, rfl⟩
    | .bytes content =>
      by_cases hempty : content.isEmpty = true
      · simp [hempty, delivered, ending]
      · have hne : ∀ c ∈ chunks s.chunkSize content.length content, c ≠ [] :=
          fun c hc => ne_nil_of_mem_chunks hsize hc
        obtain ⟨hbytes, hend⟩ := delivered_bytes_append hne (s.deliveries rest)
        rw [flatten_chunks hsize le_rfl] at hbytes
        simp only [hempty, Bool.false_eq_true, if_false, delivered, ending]
        exact ⟨hbytes.trans (by rw [← ih.1]; rfl), hend.trans ih.2⟩

/-- Contents that fit into one chunk are read as they are. -/
theorem deliveries_eq_self {s : MarkerScanner} {waiting : List (Delivery ε)}
    (hfit : ∀ content, Delivery.bytes content ∈ waiting → content.length ≤ s.chunkSize) :
    s.deliveries waiting = waiting := by
  induction waiting with
  | nil => rfl
  | cons d rest ih =>
    have hrest := ih fun content hmem => hfit content (List.mem_cons_of_mem _ hmem)
    unfold deliveries at hrest ⊢
    rw [List.flatMap_cons, hrest]
    match d with
    | .interrupted => rfl
    | .failed e => rfl
    | .bytes content =>
      have hle := hfit content List.mem_cons_self
      match content with
      | [] => rfl
      | b :: more =>
        -- the whole content is the first chunk, and nothing is left for others
        have htail : chunks s.chunkSize more.length [] = [] := by cases more.length <;> rfl
        simp only [List.isEmpty_cons, Bool.false_eq_true, if_false, List.length_cons, chunks,
          List.take_of_length_le hle, List.drop_eq_nil_of_le hle, htail, List.map_cons,
          List.map_nil, List.singleton_append]

/-! ## 4. The answer -/

@[simp] theorem mem_markers_create {markers : List (List UInt8)} {chunkSize : Nat} {m : List UInt8} :
    m ∈ (create markers chunkSize).markers ↔ m ∈ markers ∧ m ≠ [] := by
  simp [create]

theorem markers_create_isEmpty {markers : List (List UInt8)} {chunkSize : Nat} :
    (create markers chunkSize).markers.isEmpty = true ↔ ∀ m ∈ markers, m = [] := by
  simp [create, List.filter_eq_nil_iff]

/-- Before the first read nothing has been delivered, and no marker is empty. -/
theorem containsMarker_create_nil (markers : List (List UInt8)) (chunkSize : Nat) :
    (create markers chunkSize).containsMarker [] = false := by
  rw [Bool.eq_false_iff, ne_eq, containsMarker_iff]
  rintro ⟨m, hm, hin⟩
  exact (mem_markers_create.1 hm).2 (List.infix_nil.1 hin)

theorem scan_create (markers : List (List UInt8)) (chunkSize : Nat) (waiting : List (Delivery ε)) :
    (create markers chunkSize).scan waiting =
      if (create markers chunkSize).containsMarker (delivered waiting) then .ok true
      else if (create markers chunkSize).markers.isEmpty then .ok false
      else (ending waiting).map fun _ => false := by
  have hsize : 0 < (create markers chunkSize).chunkSize := by
    show 0 < max chunkSize 1
    omega
  obtain ⟨hbytes, hend⟩ := delivered_deliveries hsize waiting
  unfold scan scanReads
  -- without markers no window holds one, and nothing is read
  by_cases hempty : (create markers chunkSize).markers.isEmpty = true
  · have hnone : (create markers chunkSize).containsMarker (delivered waiting) = false := by
      rw [containsMarker, List.isEmpty_iff.1 hempty]
      rfl
    rw [if_pos hempty, if_pos hempty, hnone]
    rfl
  · rw [if_neg hempty, if_neg hempty, ← hbytes, ← hend]
    -- the loop starts with nothing delivered and an empty window
    have hrun := scanFrom_carry (create markers chunkSize)
      (containsMarker_create_nil markers chunkSize) ((create markers chunkSize).deliveries waiting)
    rwa [carry, List.drop_nil, List.nil_append] at hrun

/-- **A scan is a search for the markers in all that a stream delivers.** It finds one exactly when
a marker with at least one byte occurs there, whatever comes after it; else the end of the stream
decides, except that a scan without such a marker reads nothing. Where reads of at most the size of
a chunk are scripted, they are the reads that are done. Neither that size nor how the bytes are cut
has any influence. -/
theorem scan_eq_search (markers : List (List UInt8)) (chunkSize : Nat)
    (waiting : List (Delivery ε)) :
    let s := create markers chunkSize
    let occurs := ∃ m ∈ markers, m ≠ [] ∧ m <:+: delivered waiting
    (s.scan waiting = .ok true ↔ occurs) ∧
    (s.scan waiting = .ok false ↔
      ¬ occurs ∧ ((∀ m ∈ markers, m = []) ∨ ending waiting = .ok ())) ∧
    (∀ e, s.scan waiting = .error e ↔
      ¬ occurs ∧ (∃ m ∈ markers, m ≠ []) ∧ ending waiting = .error e) ∧
    ((∀ m ∈ markers, m = []) → s.scanReads waiting = (.ok false, s.deliveries waiting)) ∧
    ((∀ content, Delivery.bytes content ∈ waiting → content.length ≤ max chunkSize 1) →
      s.deliveries waiting = waiting) ∧
    ∀ (otherSize : Nat) (other : List (Delivery ε)), delivered other = delivered waiting →
      ending other = ending waiting → (create markers otherSize).scan other = s.scan waiting := by
  intro s occurs
  have hoccurs : occurs ↔ s.containsMarker (delivered waiting) = true := by
    simp only [containsMarker_iff, s, mem_markers_create, and_assoc, occurs]
  have hempty : (∀ m ∈ markers, m = []) ↔ s.markers.isEmpty = true :=
    markers_create_isEmpty.symm
  have hsome : (∃ m ∈ markers, m ≠ []) ↔ s.markers.isEmpty = false := by
    rw [Bool.eq_false_iff, ne_eq, ← hempty]
    push Not
    rfl
  -- all parts but the last three read off the value of the scan
  have hscan : s.scan waiting = _ := scan_create markers chunkSize waiting
  refine ⟨?_, ?_, fun e => ?_, fun hall => ?_, fun hfit => deliveries_eq_self hfit,
    fun otherSize other hb he => ?_⟩
  · rw [hoccurs, hscan]
    cases s.containsMarker (delivered waiting) <;> cases s.markers.isEmpty <;>
      cases ending waiting <;> simp [Except.map]
  · rw [hoccurs, hempty, hscan]
    cases s.containsMarker (delivered waiting) <;> cases s.markers.isEmpty <;>
      cases ending waiting <;> simp [Except.map]
  · rw [hoccurs, hsome, hscan]
    cases s.containsMarker (delivered waiting) <;> cases s.markers.isEmpty <;>
      cases ending waiting <;> simp [Except.map]
  · unfold scanReads
    rw [if_pos (hempty.1 hall)]
  · rw [hscan, scan_create, hb, he]
    rfl

end MarkerScanner

end BuildSteps
