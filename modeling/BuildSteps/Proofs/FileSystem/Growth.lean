import BuildSteps.FileSystem

/-!
# File systems that grow

Generation only ever adds to a file system. What stood at a place stays there, and a path that led
to something leads to the same thing afterwards.
-/

namespace BuildSteps

namespace FileSystem

/-! ## 1. Looking paths up -/

structure HasRoom (fs : FileSystem) (folder : Place) (name : String) : Prop where
  isDirectoryAt : fs.isDirectoryAt folder = true
  notSilent : ¬ (name = "" ∨ name = ".")
  notParent : name ≠ ".."
  short : name.utf8ByteSize ≤ 255
  free : fs.node? (folder ++ [name]) = none

/-- What a walk does at one piece, whatever comes behind it. -/
inductive Stride (fs : FileSystem) (place : Place) (piece : String) : Prop
  | goes (q : Place) (h : ∀ followLast rest,
      fs.walk followLast place (piece :: rest) = fs.walk followLast q rest)
  | fails (e : FileError) (h : ∀ followLast rest,
      fs.walk followLast place (piece :: rest) = .error e)
  | misses (room : fs.HasRoom place piece) (h : ∀ followLast rest,
      fs.walk followLast place (piece :: rest) = .ok (.missing place piece rest))
  | meets (target : String) (h : ∀ followLast rest,
      fs.walk followLast place (piece :: rest) =
        if rest.isEmpty && !followLast then .ok (.arrived (place ++ [piece]))
        else .ok (.link place target rest))

theorem stride (fs : FileSystem) (place : Place) (piece : String) : fs.Stride place piece := by
  by_cases hclosed : (!fs.isDirectoryAt place) = true
  · exact .fails .notDirectory fun _ _ => by rw [walk, if_pos hclosed]
  by_cases hsilent : piece = "" ∨ piece = "."
  · exact .goes place fun _ _ => by rw [walk, if_neg hclosed, if_pos hsilent]
  by_cases hparent : piece = ".."
  · exact .goes place.dropLast fun _ _ => by
      rw [walk, if_neg hclosed, if_neg hsilent, if_pos hparent]
  by_cases hlong : piece.utf8ByteSize > 255
  · exact .fails .nameTooLong fun _ _ => by
      rw [walk, if_neg hclosed, if_neg hsilent, if_neg hparent, if_pos hlong]
  -- what the folder holds under the name decides
  cases hnode : fs.node? (place ++ [piece]) with
  | none =>
    have hfolder : fs.isDirectoryAt place = true := by simpa using hclosed
    exact .misses ⟨hfolder, hsilent, hparent, Nat.not_lt.1 hlong, hnode⟩ fun _ _ => by
      rw [walk, if_neg hclosed, if_neg hsilent, if_neg hparent, if_neg hlong, hnode]
  | some node =>
    cases node with
    | link target =>
      exact .meets target fun _ _ => by
        rw [walk, if_neg hclosed, if_neg hsilent, if_neg hparent, if_neg hlong, hnode]
    | directory =>
      exact .goes (place ++ [piece]) fun _ _ => by
        rw [walk, if_neg hclosed, if_neg hsilent, if_neg hparent, if_neg hlong, hnode]
    | file content =>
      exact .goes (place ++ [piece]) fun _ _ => by
        rw [walk, if_neg hclosed, if_neg hsilent, if_neg hparent, if_neg hlong, hnode]

theorem refusal?_eq_none_iff {p : Path} :
    refusal? p = none ↔ p.text ≠ "" ∧ '\x00' ∉ p.text.toList ∧ p.text.utf8ByteSize ≤ 4095 := by
  rw [refusal?]
  split
  · next hempty => simp [String.isEmpty_iff.1 hempty]
  · next hempty =>
    rw [String.isEmpty_iff] at hempty
    split
    · next hnul => simp [hnul]
    · next hnul =>
      split
      · next hlong => simp [Nat.not_le.2 hlong]
      · next hlong => simp [hempty, hnul, Nat.not_lt.1 hlong]

theorem follow_of_refusal? {p : Path} (h : refusal? p = none) (fs : FileSystem)
    (followLast : Bool) :
    fs.follow followLast p =
      fs.resolve followLast 41 (startOf fs.workingDirectory p) p.pieces := by
  rw [follow, h]

theorem follow_of_find {fs : FileSystem} {p : Path} {place : Place} (h : fs.find p = .ok place) :
    fs.follow true p = .ok (.arrived place) := by
  rw [find] at h
  split at h
  · next q hq => rw [hq, Except.ok.inj h]
  · cases h
  · cases h

theorem refusal?_of_find {fs : FileSystem} {p : Path} {place : Place}
    (h : fs.find p = .ok place) : refusal? p = none := by
  have hfollow := follow_of_find h
  rw [follow] at hfollow
  split at hfollow
  · cases hfollow
  · next hp => exact hp

theorem toList_loop_eq (bytes : ByteArray) (i : Nat) (front : List UInt8) :
    ByteArray.toList.loop bytes i front = front.reverse ++ bytes.data.toList.drop i := by
  fun_induction ByteArray.toList.loop bytes i front with
  | case1 i front h ih =>
    have hi : i < bytes.data.toList.length := h
    have hget : bytes.get! i = bytes.data.toList[i] := getElem!_pos bytes.data i h
    rw [ih, hget, List.reverse_cons, List.append_assoc, List.singleton_append,
      List.getElem_cons_drop]
  | case2 i front h =>
    have hi : bytes.data.toList.length ≤ i := Nat.not_lt.1 h
    rw [List.drop_eq_nil_of_le hi, List.append_nil]

theorem toList_eq_data (bytes : ByteArray) : bytes.toList = bytes.data.toList := by
  rw [ByteArray.toList, toList_loop_eq]
  rfl

/-- A file that holds the bytes of a text is read as that text. -/
theorem readText_of_read {fs : FileSystem} {p : Path} {text : String}
    (h : fs.read p = .ok text.toUTF8.data.toList) : fs.readText p = .ok text := by
  have htext : String.fromUTF8? ⟨text.toUTF8.data.toList.toArray⟩ = some text := by
    rw [Array.toArray_toList]
    exact dif_pos text.isValidUTF8
  rw [readText, h]
  simp only [htext]

theorem readText_of_bytes {fs : FileSystem} {p : Path} {text : String}
    (h : fs.read p = .ok text.toUTF8.toList) : fs.readText p = .ok text :=
  readText_of_read (by rw [h, toList_eq_data])

/-! ## 2. Growing -/

/-- Whether a file system holds all that another one holds. -/
structure Grows (fs fs' : FileSystem) : Prop where
  workingDirectory : fs'.workingDirectory = fs.workingDirectory
  node? : ∀ {place : Place} {node : Node}, fs.node? place = some node →
    fs'.node? place = some node

namespace Grows

theorem refl (fs : FileSystem) : fs.Grows fs := ⟨rfl, id⟩

theorem trans {fs fs' fs'' : FileSystem} (h : fs.Grows fs') (h' : fs'.Grows fs'') :
    fs.Grows fs'' :=
  ⟨h'.workingDirectory.trans h.workingDirectory, fun hnode => h'.node? (h.node? hnode)⟩

variable {fs fs' : FileSystem}

theorem node?_eq_none (h : fs.Grows fs') {place : Place} (hnone : fs'.node? place = none) :
    fs.node? place = none := by
  cases hnode : fs.node? place with
  | none => rfl
  | some node =>
    rw [h.node? hnode] at hnone
    cases hnone

theorem isDirectoryAt (h : fs.Grows fs') {place : Place} (hfolder : fs.isDirectoryAt place = true) :
    fs'.isDirectoryAt place = true := by
  rw [FileSystem.isDirectoryAt] at hfolder ⊢
  split at hfolder
  · next node hnode =>
    rw [h.node? hnode]
    exact hfolder
  · cases hfolder

/-- A walk that meets no missing name takes the same course afterwards. -/
theorem walk (h : fs.Grows fs') {followLast : Bool} {place : Place} {pieces : List String}
    {walked : Walked} (hwalked : fs.walk followLast place pieces = .ok walked)
    (hfound : ∀ folder name rest, walked ≠ .missing folder name rest) :
    fs'.walk followLast place pieces = .ok walked := by
  induction pieces generalizing place with
  | nil => exact hwalked
  | cons piece rest ih =>
    rw [FileSystem.walk] at hwalked ⊢
    by_cases hfolder : fs.isDirectoryAt place = true
    · rw [if_neg (by rw [hfolder]; decide)] at hwalked
      rw [if_neg (by rw [h.isDirectoryAt hfolder]; decide)]
      split at hwalked
      · next hsilent => rw [if_pos hsilent]; exact ih hwalked
      · next hsilent =>
        rw [if_neg hsilent]
        split at hwalked
        · next hparent => rw [if_pos hparent]; exact ih hwalked
        · next hparent =>
          rw [if_neg hparent]
          split at hwalked
          · cases hwalked
          · next hlong =>
            rw [if_neg hlong]
            split at hwalked
            -- only a missing name could be there afterwards
            · exact absurd (Except.ok.inj hwalked).symm (hfound place piece rest)
            · next target hnode =>
              simp only [h.node? hnode]
              exact hwalked
            · next node hlink hnode =>
              simp only [h.node? hnode]
              exact ih hwalked
    · rw [if_pos (by rw [Bool.eq_false_iff.2 hfolder]; rfl)] at hwalked
      cases hwalked

theorem resolve (h : fs.Grows fs') {followLast : Bool} {links : Nat} {place q : Place}
    {pieces : List String}
    (hresolve : fs.resolve followLast links place pieces = .ok (.arrived q)) :
    fs'.resolve followLast links place pieces = .ok (.arrived q) := by
  induction links generalizing place pieces with
  | zero => cases hresolve
  | succ links ih =>
    rw [FileSystem.resolve] at hresolve ⊢
    split at hresolve
    · next folder target rest hwalk =>
      simp only [h.walk hwalk fun _ _ _ => Walked.noConfusion]
      split at hresolve
      · cases hresolve
      · next hempty =>
        rw [if_neg hempty]
        exact ih hresolve
    · simp only [h.walk hresolve fun _ _ _ => Walked.noConfusion]

theorem find (h : fs.Grows fs') {p : Path} {place : Place} (hfind : fs.find p = .ok place) :
    fs'.find p = .ok place := by
  have hp := refusal?_of_find hfind
  have hfollow := follow_of_find hfind
  rw [follow_of_refusal? hp] at hfollow
  rw [FileSystem.find, follow_of_refusal? hp, h.workingDirectory, h.resolve hfollow]

theorem lookup? (h : fs.Grows fs') {p : Path} {node : Node} (hlookup : fs.lookup? p = some node) :
    fs'.lookup? p = some node := by
  rw [FileSystem.lookup?] at hlookup
  split at hlookup
  · next place hfind =>
    rw [FileSystem.lookup?, h.find hfind]
    exact h.node? hlookup
  · cases hlookup

theorem isDirectory (h : fs.Grows fs') {p : Path} (hfolder : fs.isDirectory p = true) :
    fs'.isDirectory p = true := by
  obtain ⟨node, hnode, hkind⟩ := (Option.any_eq_true _ _).1 hfolder
  exact (Option.any_eq_true _ _).2 ⟨node, h.lookup? hnode, hkind⟩

theorem isFile (h : fs.Grows fs') {p : Path} (hfile : fs.isFile p = true) :
    fs'.isFile p = true := by
  obtain ⟨node, hnode, hkind⟩ := (Option.any_eq_true _ _).1 hfile
  exact (Option.any_eq_true _ _).2 ⟨node, h.lookup? hnode, hkind⟩

theorem read (h : fs.Grows fs') {p : Path} {content : List UInt8}
    (hread : fs.read p = .ok content) : fs'.read p = .ok content := by
  rw [FileSystem.read] at hread
  split at hread
  · cases hread
  · next place hfind =>
    split at hread
    · next hnode =>
      rw [FileSystem.read, h.find hfind]
      simp only [h.node? hnode]
      exact hread
    · cases hread
    · cases hread

end Grows

end FileSystem

end BuildSteps
