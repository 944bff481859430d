import Mathlib.Data.List.Induction
import Mathlib.Data.List.Nodup
import BuildSteps.Proofs.FileSystem.Growth
import BuildSteps.Proofs.Path.FileName

/-!
# File systems that are trees

In a tree every entry has its own place, in a folder and below a name. The paths that a walk of a
folder lists then lead to the files that the walk has met, and go on doing so when the file system
grows.
-/

namespace BuildSteps.FileSystem

/-- Whether the entries form a tree below the root. -/
structure IsTree (fs : FileSystem) : Prop where
  distinct : (fs.entries.map (·.1)).Nodup
  folders : ∀ entry ∈ fs.entries, entry.1 ≠ [] ∧ fs.isDirectoryAt entry.1.dropLast = true
  names : ∀ entry ∈ fs.entries, ∀ name ∈ entry.1, Path.IsName name ∧ name.utf8ByteSize ≤ 255

variable {fs : FileSystem}

/-! ## 1. Entries -/

theorem node?_of_isDirectoryAt {place : Place} (h : fs.isDirectoryAt place = true) :
    fs.node? place = some .directory := by
  rw [isDirectoryAt] at h
  split at h
  · next node hnode =>
    rw [hnode]
    cases node with
    | directory => rfl
    | file content => cases h
    | link target => cases h
  · cases h

theorem mem_of_node? {place : Place} {node : Node} (h : fs.node? place = some node)
    (hne : place ≠ []) : (place, node) ∈ fs.entries := by
  rw [node?, if_neg (by rwa [List.isEmpty_iff])] at h
  obtain ⟨entry, hentry, rfl⟩ := Option.map_eq_some_iff.1 h
  have hfound := List.find?_some hentry
  have hplace : entry.1 = place := beq_iff_eq.1 hfound
  rw [← hplace]
  exact List.mem_of_find?_eq_some hentry

namespace IsTree

theorem node?_of_mem (tree : fs.IsTree) {place : Place} {node : Node}
    (h : (place, node) ∈ fs.entries) : fs.node? place = some node := by
  have hne := (tree.folders _ h).1
  have hsome : (fs.entries.find? fun entry => entry.1 == place).isSome = true := by
    rw [List.find?_isSome]
    exact ⟨_, h, beq_self_eq_true place⟩
  obtain ⟨entry, hentry⟩ := Option.isSome_iff_exists.1 hsome
  have hfound := List.find?_some hentry
  have hplace : entry.1 = place := beq_iff_eq.1 hfound
  have hsame := List.inj_on_of_nodup_map tree.distinct (List.mem_of_find?_eq_some hentry) h hplace
  rw [node?, if_neg (by rwa [List.isEmpty_iff]), hentry, hsame]
  rfl

/-- Whatever stands below a place, there is a folder at that place. The induction is on the names
between the two, from the lowest upwards. -/
theorem isDirectoryAt_of_mem (tree : fs.IsTree) {place : Place} {names : List String} {node : Node}
    (h : (place ++ names, node) ∈ fs.entries) (hne : names ≠ []) :
    fs.isDirectoryAt place = true := by
  induction names using List.reverseRecOn generalizing node with
  | nil => exact absurd rfl hne
  | append_singleton names name ih =>
    have hfolder := (tree.folders _ h).2
    rw [← List.append_assoc, List.dropLast_concat] at hfolder
    by_cases hnil : names = []
    · rwa [hnil, List.append_nil] at hfolder
    · have hmem := mem_of_node? (node?_of_isDirectoryAt hfolder)
        (List.append_ne_nil_of_right_ne_nil place hnil)
      exact ih hmem hnil

theorem names_of_mem (tree : fs.IsTree) {place : Place} {names : List String} {node : Node}
    (h : (place ++ names, node) ∈ fs.entries) : ∀ name ∈ names, Path.IsName name :=
  fun name hname => (tree.names _ h name (List.mem_append_right place hname)).1

/-- A walk along the names that lead to a file arrives there. -/
theorem walk_of_mem (tree : fs.IsTree) {place : Place} {names : List String}
    {content : List UInt8} (h : (place ++ names, .file content) ∈ fs.entries) :
    fs.walk true place names = .ok (.arrived (place ++ names)) := by
  induction names generalizing place with
  | nil => rw [walk, List.append_nil]
  | cons name names ih =>
    obtain ⟨hname, hlong⟩ := tree.names _ h name (List.mem_append_right _ List.mem_cons_self)
    have hfolder := tree.isDirectoryAt_of_mem h (List.cons_ne_nil name names)
    have hsilent : ¬ (name = "" ∨ name = ".") := fun hor => hor.elim hname.nonempty hname.notCurrent
    rw [walk, if_neg (by rw [hfolder]; decide), if_neg hsilent, if_neg hname.notParent,
      if_neg (Nat.not_lt.2 hlong)]
    rw [List.append_cons place name names] at h ⊢
    -- a folder or the file itself, and no link
    have hnode : fs.node? (place ++ [name]) = some .directory ∨
        fs.node? (place ++ [name]) = some (.file content) := by
      by_cases hnil : names = []
      · right
        rw [hnil, List.append_nil] at h
        exact tree.node?_of_mem h
      · exact .inl (node?_of_isDirectoryAt (tree.isDirectoryAt_of_mem h hnil))
    rcases hnode with hnode | hnode
    · rw [hnode]
      exact ih h
    · rw [hnode]
      exact ih h

end IsTree

/-! ## 2. Walks one after the other -/

def goOn (fs : FileSystem) (rest : List String) : Except FileError Walked → Except FileError Walked
  | .ok (.arrived place) => fs.walk true place rest
  | .ok (.link folder target behind) => .ok (.link folder target (behind ++ rest))
  | .ok (.missing folder name behind) => .ok (.missing folder name (behind ++ rest))
  | .error e => .error e

theorem walk_append (fs : FileSystem) (place : Place) (front rest : List String) :
    fs.walk true place (front ++ rest) = fs.goOn rest (fs.walk true place front) := by
  induction front generalizing place with
  | nil => rfl
  | cons piece front ih =>
    rw [List.cons_append]
    cases fs.stride place piece with
    | goes q hgoes => rw [hgoes, hgoes, ih]
    | fails e hfails => rw [hfails, hfails, goOn]
    | misses room hmisses => rw [hmisses, hmisses, goOn]
    | meets target hmeets =>
      rw [hmeets, hmeets]
      simp [goOn]

/-- A path that goes on where another one leads is looked up from there, with as many links to go as
are left. -/
theorem resolve_append {links : Nat} {place q : Place} {front : List String}
    (h : fs.resolve true links place front = .ok (.arrived q)) :
    ∃ left, ∀ rest, fs.resolve true links place (front ++ rest) =
      fs.resolve true (left + 1) q rest := by
  induction links generalizing place front with
  | zero => cases h
  | succ links ih =>
    rw [resolve] at h
    split at h
    · next folder target behind hwalk =>
      split at h
      · cases h
      · next hempty =>
        obtain ⟨left, hleft⟩ := ih h
        refine ⟨left, fun rest => ?_⟩
        rw [resolve, walk_append, hwalk]
        show (if _ then _ else _) = _
        rw [if_neg hempty, ← List.append_assoc]
        exact hleft rest
    · refine ⟨links, fun rest => ?_⟩
      rw [resolve, walk_append, h, resolve]
      rfl

/-- A separator at the end makes no difference to where a path leads. -/
theorem resolve_of_append_empty {links : Nat} {place q : Place} {front : List String}
    (h : fs.resolve true links place (front ++ [""]) = .ok (.arrived q)) :
    fs.resolve true links place front = .ok (.arrived q) := by
  induction links generalizing place front with
  | zero => cases h
  | succ links ih =>
    rw [resolve, walk_append] at h
    rw [resolve]
    cases hwalk : fs.walk true place front with
    | error e =>
      rw [hwalk] at h
      cases h
    | ok walked =>
      rw [hwalk] at h
      cases walked with
      | arrived place' =>
        -- the walk stays where it is
        by_cases hfolder : fs.isDirectoryAt place' = true
        · simp only [goOn, walk, hfolder] at h
          exact h
        · simp only [goOn, walk, hfolder] at h
          cases h
      | link folder target behind =>
        simp only [goOn] at h
        split at h
        · cases h
        · next hempty =>
          rw [← List.append_assoc] at h
          simp only [if_neg hempty]
          exact ih h
      | missing folder name behind => cases h

/-! ## 3. Reading what a walk lists -/

theorem insertOrdered_perm (names : List String) (others : List (List String)) :
    (insertOrdered names others).Perm (names :: others) := by
  induction others with
  | nil => exact .refl _
  | cons other others ih =>
    rw [insertOrdered]
    split
    · exact .refl _
    · exact (ih.cons other).trans (.swap _ _ _)

theorem filesBelow_perm (fs : FileSystem) (place : Place) :
    (fs.filesBelow place).Perm (fs.entries.filterMap fun entry =>
      if entry.2.isFile && place.isPrefixOf entry.1 && entry.1 != place then
        some (entry.1.drop place.length)
      else none) := by
  rw [filesBelow]
  induction fs.entries.filterMap _ with
  | nil => exact .refl _
  | cons names others ih => exact (insertOrdered_perm names _).trans (ih.cons names)

theorem mem_filesBelow {place : Place} {names : List String} :
    names ∈ fs.filesBelow place ↔
      names ≠ [] ∧ ∃ content, (place ++ names, .file content) ∈ fs.entries := by
  rw [(fs.filesBelow_perm place).mem_iff, List.mem_filterMap]
  constructor
  · rintro ⟨⟨other, node⟩, hmem, hentry⟩
    split at hentry
    · next htests =>
      obtain rfl := Option.some.inj hentry
      simp only [Bool.and_eq_true, bne_iff_ne, List.isPrefixOf_iff_prefix] at htests
      obtain ⟨⟨hfile, names, rfl⟩, hne⟩ := htests
      rw [List.drop_left]
      refine ⟨fun hnil => hne (by rw [hnil, List.append_nil]), ?_⟩
      cases node with
      | file content => exact ⟨content, hmem⟩
      | directory => cases hfile
      | link target => cases hfile
    · cases hentry
  · rintro ⟨hne, content, hmem⟩
    refine ⟨_, hmem, ?_⟩
    rw [if_pos, List.drop_left]
    simp [Node.isFile, hne]

theorem mem_walkFiles {folder p : Path} :
    p ∈ fs.walkFiles folder ↔ ∃ place names, fs.find folder = .ok place ∧
      names ∈ fs.filesBelow place ∧ p = folder.withNames names := by
  rw [walkFiles]
  cases fs.find folder with
  | error e => simp
  | ok place =>
    simp only [List.mem_map, Except.ok.injEq, exists_and_left, exists_eq_left']
    exact ⟨fun ⟨names, h, heq⟩ => ⟨names, h, heq.symm⟩, fun ⟨names, h, heq⟩ => ⟨names, h, heq.symm⟩⟩

namespace IsTree

/-- The path of a file that a walk has met leads to that file. -/
theorem find_withNames (tree : fs.IsTree) {folder : Path} {place : Place} {names : List String}
    {content : List UInt8} (hfolder : fs.find folder = .ok place)
    (h : (place ++ names, .file content) ∈ fs.entries) (hne : names ≠ [])
    (hpath : refusal? (folder.withNames names) = none) :
    fs.find (folder.withNames names) = .ok (place ++ names) := by
  have hnames := tree.names_of_mem h
  obtain ⟨front, hpieces, hfront⟩ := Path.pieces_withNames hnames hne folder
  have hstart : startOf fs.workingDirectory (folder.withNames names) =
      startOf fs.workingDirectory folder := by
    rw [startOf, startOf, Path.isAbsolute_withNames hnames]
  have hresolve := follow_of_find hfolder
  rw [follow_of_refusal? (refusal?_of_find hfolder)] at hresolve
  have hto : fs.resolve true 41 (startOf fs.workingDirectory folder) front =
      .ok (.arrived place) := by
    rcases hfront with hfront | hfront
    · rwa [hfront] at hresolve
    · rw [hfront] at hresolve
      exact resolve_of_append_empty hresolve
  obtain ⟨left, hleft⟩ := resolve_append hto
  rw [find, follow_of_refusal? hpath, hstart, hpieces, hleft, resolve, tree.walk_of_mem h]

theorem read_withNames (tree : fs.IsTree) {folder : Path} {place : Place} {names : List String}
    {content : List UInt8} (hfolder : fs.find folder = .ok place)
    (h : (place ++ names, .file content) ∈ fs.entries) (hne : names ≠ [])
    (hpath : refusal? (folder.withNames names) = none) :
    fs.read (folder.withNames names) = .ok content := by
  rw [read, tree.find_withNames hfolder h hne hpath]
  simp only [tree.node?_of_mem h]

end IsTree

/-- What a walk has met reads the same however the file system grows. -/
theorem Grows.read_of_mem_walkFiles {fs' : FileSystem} (hgrows : fs.Grows fs')
    (tree : fs.IsTree) {folder p : Path} (h : p ∈ fs.walkFiles folder) :
    fs'.read p = fs.read p := by
  obtain ⟨place, names, hfolder, hmem, rfl⟩ := mem_walkFiles.1 h
  obtain ⟨hne, content, hentry⟩ := mem_filesBelow.1 hmem
  cases hpath : refusal? (folder.withNames names) with
  | none =>
    have hread := tree.read_withNames hfolder hentry hne hpath
    rw [hread, hgrows.read hread]
  | some e =>
    rw [FileSystem.read, FileSystem.find, follow, hpath, FileSystem.read, FileSystem.find, follow,
      hpath]

end BuildSteps.FileSystem
