import BuildSteps.Proofs.MarkerScanner

/-!
# The window of a scan

Whenever a scan is about to read, its window holds the end of what has been delivered so far: one
byte less than the longest marker has, or all of it as long as it is shorter than that. So the
window never grows by more than what a single read brings, however long the stream is and however
it is cut.
-/

namespace BuildSteps

variable {ε : Type}

def Delivery.content : Delivery ε → List UInt8
  | .bytes content => content
  | .interrupted => []
  | .failed _ => []

namespace MarkerScanner

variable {s : MarkerScanner}

/-! ## 1. The scan in rounds -/

/-- The window once some reads have been done, unless the answer was found by then. -/
def windowAfter? (s : MarkerScanner) : List UInt8 → List (Delivery ε) → Option (List UInt8)
  | window, [] => some window
  | window, d :: done =>
    match s.round window d with
    | .more next => s.windowAfter? next done
    | .answer _ => none

/-- After some reads a scan goes on with the window that they leave, or reads no further. -/
theorem scanFrom_append (window : List UInt8) (done waiting : List (Delivery ε)) :
    s.scanFrom window (done ++ waiting) =
      match s.windowAfter? window done with
      | some next => s.scanFrom next waiting
      | none => ((s.scanFrom window done).1, (s.scanFrom window done).2 ++ waiting) := by
  induction done generalizing window with
  | nil => rfl
  | cons d done ih =>
    rw [List.cons_append, scanFrom, scanFrom, windowAfter?]
    cases s.round window d with
    | more next => exact ih next
    | answer found => rfl

/-! ## 2. What the window holds -/

/-- A round keeps the end of all that was delivered, with what it has read. -/
theorem round_carry {past next : List UInt8} {d : Delivery ε}
    (h : s.round (s.carry past) d = .more next) : next = s.carry (past ++ d.content) := by
  cases d with
  | interrupted =>
    obtain rfl := Round.more.inj h
    rw [Delivery.content, List.append_nil]
  | failed e => cases h
  | bytes content =>
    rw [round] at h
    split at h
    · cases h
    · split at h
      · cases h
      · rw [← Round.more.inj h, carry_carry_append, Delivery.content]

theorem windowAfter?_carry {past window : List UInt8} {done : List (Delivery ε)}
    (h : s.windowAfter? (s.carry past) done = some window) :
    window = s.carry (past ++ done.flatMap Delivery.content) := by
  induction done generalizing past with
  | nil =>
    obtain rfl := Option.some.inj h
    rw [List.flatMap_nil, List.append_nil]
  | cons d done ih =>
    rw [windowAfter?] at h
    split at h
    · next next hround =>
      rw [round_carry hround] at h
      rw [List.flatMap_cons, ← List.append_assoc]
      exact ih h
    · cases h

theorem length_carry (s : MarkerScanner) (past : List UInt8) :
    (s.carry past).length = min s.carryLength past.length := by
  rw [carry, List.length_drop]
  omega

theorem carryLength_eq {longest : List UInt8} (hlongest : longest ∈ s.markers)
    (hmax : ∀ m ∈ s.markers, m.length ≤ longest.length) : s.carryLength = longest.length - 1 := by
  have hle : longest.length ≤ s.carryLength + 1 := length_le_carryLength hlongest
  have hbound : (s.markers.map List.length).foldl max 0 ≤ longest.length := by
    refine List.foldlRecOn (motive := (· ≤ longest.length)) _ _ (Nat.zero_le _)
      fun most hmost length hlength => ?_
    obtain ⟨m, hm, rfl⟩ := List.mem_map.1 hlength
    exact max_le hmost (hmax m hm)
  unfold carryLength at hle ⊢
  omega

theorem length_le_of_mem_chunks {size count : Nat} {bytes c : List UInt8}
    (h : c ∈ chunks size count bytes) : c.length ≤ size := by
  induction count generalizing bytes with
  | zero => cases h
  | succ count ih =>
    rw [chunks] at h
    split at h
    · cases h
    · rcases List.mem_cons.1 h with rfl | h
      · exact List.length_take_le _ _
      · exact ih h

theorem length_content_le {stream : List (Delivery ε)} {d : Delivery ε}
    (h : d ∈ s.deliveries stream) : d.content.length ≤ s.chunkSize := by
  obtain ⟨waiting, -, hd⟩ := List.mem_flatMap.1 h
  match waiting with
  | .interrupted =>
    obtain rfl := List.mem_singleton.1 hd
    exact Nat.zero_le _
  | .failed e =>
    obtain rfl := List.mem_singleton.1 hd
    exact Nat.zero_le _
  | .bytes content =>
    simp only at hd
    split at hd
    · next hempty =>
      obtain rfl := List.mem_singleton.1 hd
      rw [Delivery.content, List.isEmpty_iff.1 hempty]
      exact Nat.zero_le _
    · obtain ⟨c, hc, rfl⟩ := List.mem_map.1 hd
      exact length_le_of_mem_chunks hc

/-! ## 3. The whole scan -/

/-- The scan of a stream is about to read: `done` is what it has read so far, `waiting` what further
reads will bring. A scan without markers reads nothing. -/
structure AboutToRead (s : MarkerScanner) (stream done : List (Delivery ε)) (window : List UInt8)
    (waiting : List (Delivery ε)) : Prop where
  marked : s.markers.isEmpty = false
  reads : s.deliveries stream = done ++ waiting
  held : s.windowAfter? [] done = some window

variable {stream done waiting : List (Delivery ε)} {window : List UInt8}

/-- Wherever the reads of a stream are cut, the scan comes to read those behind the cut, or has its
answer from those before it and leaves the others alone. -/
theorem aboutToRead_or_answered (hmarked : s.markers.isEmpty = false)
    (hreads : s.deliveries stream = done ++ waiting) :
    (∃ window, s.AboutToRead stream done window waiting) ∨
      s.scanReads stream = ((s.scanFrom [] done).1, (s.scanFrom [] done).2 ++ waiting) := by
  cases hheld : s.windowAfter? [] done with
  | some window => exact .inl ⟨window, hmarked, hreads, hheld⟩
  | none =>
    right
    rw [scanReads, if_neg (by simp [hmarked]), hreads, scanFrom_append, hheld]

namespace AboutToRead

/-- What is left to do is the scan of what is waiting, behind the window. -/
theorem scanReads (h : s.AboutToRead stream done window waiting) :
    s.scanReads stream = s.scanFrom window waiting := by
  rw [MarkerScanner.scanReads, if_neg (by simp [h.marked]), h.reads, scanFrom_append, h.held]

theorem window_eq (h : s.AboutToRead stream done window waiting) :
    window = s.carry (done.flatMap Delivery.content) := by
  have hempty : s.carry [] = [] := List.drop_nil
  have hheld := h.held
  rw [← hempty] at hheld
  exact windowAfter?_carry hheld

end AboutToRead

/-- **The window holds the end of what was delivered, and no more.** Whenever a scan is about to
read, these are its last bytes, as many as the longest marker has but one, or all of them where they
are fewer. What the read brings follows them in the window, which so never holds more than that and
a chunk. Wherever else the reads are cut, the scan comes there as well, or has its answer before. -/
theorem window_exact (h : s.AboutToRead stream done window waiting) {longest : List UInt8}
    (hlongest : longest ∈ s.markers) (hmax : ∀ m ∈ s.markers, m.length ≤ longest.length) :
    s.scanReads stream = s.scanFrom window waiting ∧
    window <:+ done.flatMap Delivery.content ∧
    window.length = min (longest.length - 1) (done.flatMap Delivery.content).length ∧
    (∀ d ∈ waiting.head?, (window ++ d.content).length ≤ longest.length - 1 + s.chunkSize) ∧
    ∀ front back, s.deliveries stream = front ++ back →
      (∃ held, s.AboutToRead stream front held back) ∨
        s.scanReads stream = ((s.scanFrom [] front).1, (s.scanFrom [] front).2 ++ back) := by
  have hlength : window.length = min (longest.length - 1) (done.flatMap Delivery.content).length := by
    rw [h.window_eq, length_carry, carryLength_eq hlongest hmax]
  refine ⟨h.scanReads, ?_, hlength, fun d hd => ?_,
    fun front back hcut => aboutToRead_or_answered h.marked hcut⟩
  · rw [h.window_eq]
    exact List.drop_suffix _ _
  · have hread : d ∈ s.deliveries stream := by
      rw [h.reads]
      exact List.mem_append_right done (List.mem_of_mem_head? hd)
    have hchunk := length_content_le hread
    rw [List.length_append]
    omega

/-- Reads that bring less than the window keeps, and one that brings nothing. -/
theorem window_exact_trickle :
    let s := create [[1, 2, 3, 4], [9]] 2
    let stream : List (Delivery Empty) := [.bytes [5], .interrupted, .bytes [6, 7, 8], .bytes [1, 9]]
    let done : List (Delivery Empty) := [.bytes [5], .interrupted, .bytes [6, 7], .bytes [8]]
    s.AboutToRead stream done [6, 7, 8] [.bytes [1, 9]] ∧ [1, 2, 3, 4] ∈ s.markers ∧
      (∀ m ∈ s.markers, m.length ≤ 4) ∧ [6, 7, 8] <:+ done.flatMap Delivery.content ∧
      [6, 7, 8].length = min (4 - 1) [5, 6, 7, 8].length ∧
      ([6, 7, 8] ++ [1, 9]).length ≤ 4 - 1 + s.chunkSize := by
  intro s stream done
  have hpoint : s.AboutToRead stream done [6, 7, 8] [.bytes [1, 9]] := ⟨rfl, rfl, rfl⟩
  have hlongest : [1, 2, 3, 4] ∈ s.markers := by decide
  have hmax : ∀ m ∈ s.markers, m.length ≤ 4 := by decide
  obtain ⟨-, hsuffix, hlength, hbound, -⟩ := window_exact hpoint hlongest hmax
  exact ⟨hpoint, hlongest, hmax, hsuffix, hlength, hbound (.bytes [1, 9]) rfl⟩

end MarkerScanner

end BuildSteps
