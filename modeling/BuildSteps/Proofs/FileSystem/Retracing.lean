import BuildSteps.Proofs.FileSystem.Creation

/-!
# Looking paths up again

A path that is looked up after a file system has grown takes the same course as before, at least up
to the name that was missing. What stands there afterwards was added, and so is all below it: only
`..` leads out of it again.
-/

namespace BuildSteps.FileSystem

variable {fs fs' : FileSystem}

/-! ## 1. The same course -/

/-- How a walk from a place goes before and after a file system has grown. -/
inductive Retraced (fs fs' : FileSystem) (place : Place) (pieces : List String) : Prop
  | arrives (q : Place) (known : (fs.node? q).isSome = true)
      (before : fs.walk true place pieces = .ok (.arrived q))
      (after : fs'.walk true place pieces = .ok (.arrived q))
  | meets (folder : Place) (target : String) (rest : List String)
      (known : fs.isDirectoryAt folder = true)
      (before : fs.walk true place pieces = .ok (.link folder target rest))
      (after : fs'.walk true place pieces = .ok (.link folder target rest))
  | fails (e : FileError) (before : fs.walk true place pieces = .error e)
      (after : fs'.walk true place pieces = .error e)
  | misses (folder : Place) (name : String) (rest : List String) (room : fs.HasRoom folder name)
      (before : fs.walk true place pieces = .ok (.missing folder name rest))
      (after : fs'.walk true place pieces = fs'.walk true folder (name :: rest))

theorem Retraced.cons {place q : Place} {piece : String} {rest : List String}
    (h : Retraced fs fs' q rest)
    (before : fs.walk true place (piece :: rest) = fs.walk true q rest)
    (after : fs'.walk true place (piece :: rest) = fs'.walk true q rest) :
    Retraced fs fs' place (piece :: rest) := by
  cases h with
  | arrives q' known h h' => exact .arrives q' known (before.trans h) (after.trans h')
  | meets folder target behind known h h' =>
    exact .meets folder target behind known (before.trans h) (after.trans h')
  | fails e h h' => exact .fails e (before.trans h) (after.trans h')
  | misses folder name behind room h h' =>
    exact .misses folder name behind room (before.trans h) (after.trans h')

theorem IsTree.isDirectoryAt_dropLast (tree : fs.IsTree) {place : Place}
    (known : (fs.node? place).isSome = true) : fs.isDirectoryAt place.dropLast = true := by
  obtain ⟨node, hnode⟩ := Option.isSome_iff_exists.1 known
  by_cases hroot : place = []
  · rw [hroot]
    rfl
  · exact (tree.folders _ (mem_of_node? hnode hroot)).2

theorem isSome_of_isDirectoryAt {place : Place} (h : fs.isDirectoryAt place = true) :
    (fs.node? place).isSome = true := by
  rw [node?_of_isDirectoryAt h]
  rfl

namespace Grows

theorem isDirectoryAt_eq (h : fs.Grows fs') {place : Place}
    (known : (fs.node? place).isSome = true) : fs'.isDirectoryAt place = fs.isDirectoryAt place := by
  obtain ⟨node, hnode⟩ := Option.isSome_iff_exists.1 known
  rw [FileSystem.isDirectoryAt, FileSystem.isDirectoryAt, hnode, h.node? hnode]

/-- A walk that starts where something stands takes the same course until a name is missing. -/
theorem retraced (h : fs.Grows fs') (tree : fs.IsTree) {place : Place}
    (known : (fs.node? place).isSome = true) (pieces : List String) :
    Retraced fs fs' place pieces := by
  induction pieces generalizing place with
  | nil => exact .arrives place known rfl rfl
  | cons piece rest ih =>
    have hsame := h.isDirectoryAt_eq known
    by_cases hfolder : fs.isDirectoryAt place = true
    · rw [hfolder] at hsame
      by_cases hsilent : piece = "" ∨ piece = "."
      · exact (ih known).cons (by simp [FileSystem.walk, hfolder, hsilent])
          (by simp [FileSystem.walk, hsame, hsilent])
      by_cases hparent : piece = ".."
      · have hup := isSome_of_isDirectoryAt (tree.isDirectoryAt_dropLast known)
        exact (ih hup).cons (by simp [FileSystem.walk, hfolder, hparent])
          (by simp [FileSystem.walk, hsame, hparent])
      by_cases hlong : piece.utf8ByteSize > 255
      · exact .fails .nameTooLong (by simp [FileSystem.walk, hfolder, hsilent, hparent, hlong])
          (by simp [FileSystem.walk, hsame, hsilent, hparent, hlong])
      cases hnode : fs.node? (place ++ [piece]) with
      | none =>
        exact .misses place piece rest ⟨hfolder, hsilent, hparent, Nat.not_lt.1 hlong, hnode⟩
          (by simp [FileSystem.walk, hfolder, hsilent, hparent, hlong, hnode]) rfl
      | some node =>
        have hnode' := h.node? hnode
        have hdown : (fs.node? (place ++ [piece])).isSome = true := by rw [hnode]; rfl
        cases node with
        | link target =>
          exact .meets place target rest hfolder
            (by simp [FileSystem.walk, hfolder, hsilent, hparent, hlong, hnode])
            (by simp [FileSystem.walk, hsame, hsilent, hparent, hlong, hnode'])
        | directory =>
          exact (ih hdown).cons (by simp [FileSystem.walk, hfolder, hsilent, hparent, hlong, hnode])
            (by simp [FileSystem.walk, hsame, hsilent, hparent, hlong, hnode'])
        | file content =>
          exact (ih hdown).cons (by simp [FileSystem.walk, hfolder, hsilent, hparent, hlong, hnode])
            (by simp [FileSystem.walk, hsame, hsilent, hparent, hlong, hnode'])
    · rw [Bool.eq_false_iff.2 hfolder] at hsame
      exact .fails .notDirectory (by simp [FileSystem.walk, hfolder])
        (by simp [FileSystem.walk, hsame])

/-- With links replaced, too, a path leads where it led before or goes on behind a name that was
missing. -/
theorem resolve_cases (h : fs.Grows fs') (tree : fs.IsTree) (links : Nat) {place : Place}
    (known : (fs.node? place).isSome = true) (pieces : List String) :
    (∃ folder name rest left, fs.HasRoom folder name ∧
        fs.resolve true links place pieces = .ok (.missing folder name rest) ∧
        fs'.resolve true links place pieces = fs'.resolve true (left + 1) folder (name :: rest)) ∨
      fs'.resolve true links place pieces = fs.resolve true links place pieces ∧
        ∀ q, fs.resolve true links place pieces = .ok (.arrived q) →
          (fs.node? q).isSome = true := by
  induction links generalizing place pieces with
  | zero => exact .inr ⟨rfl, fun _ harrived => by cases harrived⟩
  | succ links ih =>
    cases h.retraced tree known pieces with
    | arrives q hknown hbefore hafter =>
      right
      rw [FileSystem.resolve, FileSystem.resolve, hbefore, hafter]
      refine ⟨rfl, fun q' harrived => ?_⟩
      obtain rfl := Walked.arrived.inj (Except.ok.inj harrived)
      exact hknown
    | fails e hbefore hafter =>
      right
      rw [FileSystem.resolve, FileSystem.resolve, hbefore, hafter]
      exact ⟨rfl, fun _ harrived => by cases harrived⟩
    | meets folder target rest hknown hbefore hafter =>
      rw [FileSystem.resolve, FileSystem.resolve, hbefore, hafter]
      by_cases hempty : target.isEmpty = true
      · right
        simp only [if_pos hempty]
        exact ⟨trivial, fun _ harrived => by cases harrived⟩
      · simp only [if_neg hempty]
        have hstart : (fs.node? (startOf folder ⟨target⟩)).isSome = true := by
          rw [startOf]
          split
          · rfl
          · exact isSome_of_isDirectoryAt hknown
        exact ih hstart _
    | misses folder name rest hroom hbefore hafter =>
      left
      refine ⟨folder, name, rest, links, hroom, ?_, ?_⟩
      · rw [FileSystem.resolve, hbefore]
      · rw [FileSystem.resolve, FileSystem.resolve, hafter]

end Grows

/-! ## 2. Behind a missing name -/

/-- Whether a walk comes to nothing old: it meets no link, and a place that it arrives at is new and,
unless a folder stands there, has the last of the names on the way. -/
def EndsNew (fs fs' : FileSystem) (last : Option String) : Except FileError Walked → Prop
  | .ok (.arrived q) => fs.node? q = none ∧ (fs'.isDirectoryAt q = false → q.getLast? = last)
  | .ok (.link _ _ _) => False
  | .ok (.missing _ _ _) => True
  | .error _ => True

theorem IsTree.node?_append_of_free (tree : fs.IsTree) {place : Place}
    (free : fs.node? place = none) (name : String) : fs.node? (place ++ [name]) = none := by
  rw [Option.eq_none_iff_forall_ne_some]
  intro node hnode
  have hfolder := (tree.folders _ (mem_of_node? hnode (by simp))).2
  rw [List.dropLast_concat] at hfolder
  rw [node?_of_isDirectoryAt hfolder] at free
  cases free

namespace Extends

variable {names : String → Prop} {place : Place}

-- a link that stands there later stood there before
theorem walk_cons_cases (h : Extends names fs fs') {name : String}
    (hsilent : ¬ (name = "" ∨ name = ".")) (hparent : name ≠ "..")
    (free : fs.node? (place ++ [name]) = none) (rest : List String) :
    (∃ e, fs'.walk true place (name :: rest) = .error e) ∨
      fs'.walk true place (name :: rest) = .ok (.missing place name rest) ∨
      fs'.walk true place (name :: rest) = fs'.walk true (place ++ [name]) rest := by
  by_cases hfolder : fs'.isDirectoryAt place = true
  · by_cases hlong : name.utf8ByteSize > 255
    · exact .inl ⟨.nameTooLong, by simp [walk, hfolder, hsilent, hparent, hlong]⟩
    cases hnode : fs'.node? (place ++ [name]) with
    | none => exact .inr (.inl (by simp [walk, hfolder, hsilent, hparent, hlong, hnode]))
    | some node =>
      cases node with
      | link target =>
        rcases h.node?_cases hnode with hold | ⟨-, hnew | ⟨hnew, -⟩⟩
        · rw [free] at hold
          cases hold
        · cases hnew
        · cases hnew
      | directory =>
        exact .inr (.inr (by simp [walk, hfolder, hsilent, hparent, hlong, hnode]))
      | file content =>
        exact .inr (.inr (by simp [walk, hfolder, hsilent, hparent, hlong, hnode]))
  · exact .inl ⟨.notDirectory, by simp [walk, hfolder]⟩

/-- A walk from a new place that never turns back stays among what is new. -/
theorem endsNew_walk (h : Extends names fs fs') (tree : fs.IsTree) (free : fs.node? place = none)
    {pieces : List String} (hup : ".." ∉ pieces) :
    EndsNew fs fs' (place ++ pieces).getLast? (fs'.walk true place pieces) := by
  induction pieces generalizing place with
  | nil => exact ⟨free, fun _ => by rw [List.append_nil]⟩
  | cons piece rest ih =>
    obtain ⟨hparent, hrest⟩ := not_or.1 (List.mem_cons.not.1 hup)
    by_cases hsilent : piece = "" ∨ piece = "."
    · by_cases hfolder : fs'.isDirectoryAt place = true
      · have hstay : fs'.walk true place (piece :: rest) = fs'.walk true place rest := by
          simp [walk, hfolder, hsilent]
        rw [hstay]
        by_cases hend : rest = []
        · rw [hend]
          refine ⟨free, fun hfile => ?_⟩
          rw [hfolder] at hfile
          cases hfile
        · have hsame : (place ++ piece :: rest).getLast? = (place ++ rest).getLast? := by
            rw [List.append_cons, List.getLast?_append_of_ne_nil _ hend,
              List.getLast?_append_of_ne_nil _ hend]
          rw [hsame]
          exact ih free hrest
      · have hshut : fs'.walk true place (piece :: rest) = .error .notDirectory := by
          simp [walk, hfolder]
        rw [hshut]
        trivial
    · have hdown := tree.node?_append_of_free free piece
      rcases h.walk_cons_cases hsilent (Ne.symm hparent) hdown rest with
        ⟨e, hfails⟩ | hmisses | hgoes
      · rw [hfails]
        trivial
      · rw [hmisses]
        trivial
      · rw [hgoes, List.append_cons]
        exact ih hdown hrest

/-- So does one that goes on behind a name that was missing. -/
theorem endsNew_resolve (h : Extends names fs fs') (tree : fs.IsTree) {folder : Place}
    {name : String} (room : fs.HasRoom folder name) {rest : List String} (hup : ".." ∉ rest)
    (left : Nat) :
    EndsNew fs fs' (name :: rest).getLast? (fs'.resolve true (left + 1) folder (name :: rest)) := by
  have hwalk : EndsNew fs fs' (name :: rest).getLast? (fs'.walk true folder (name :: rest)) := by
    rcases h.walk_cons_cases room.notSilent room.notParent room.free rest with
      ⟨e, hfails⟩ | hmisses | hgoes
    · rw [hfails]
      trivial
    · rw [hmisses]
      trivial
    · have hends := h.endsNew_walk tree room.free hup
      rw [← List.append_cons, List.getLast?_append_of_ne_nil _ (List.cons_ne_nil name rest)] at hends
      rwa [hgoes]
  rw [resolve]
  split
  · next hlink =>
    rw [hlink] at hwalk
    cases hwalk
  · exact hwalk

/-- A place among what is new holds a file only if the file has one of the names. -/
theorem isFile_of_endsNew (h : Extends names fs fs') {q : Place} {last : Option String}
    (hends : EndsNew fs fs' last (.ok (.arrived q))) (hlast : ∀ name ∈ last, ¬ names name) :
    (fs'.node? q).any Node.isFile = false := by
  obtain ⟨hnew, hplace⟩ := hends
  rw [Bool.eq_false_iff]
  intro hfile
  obtain ⟨node, hnode, hkind⟩ := (Option.any_eq_true _ _).1 hfile
  rcases h.node?_cases hnode with hold | ⟨-, rfl | ⟨-, around, name, rfl, hadded⟩⟩
  · rw [hnew] at hold
    cases hold
  · cases hkind
  · have hleaf : fs'.isDirectoryAt (around ++ [name]) = false := by
      rw [isDirectoryAt, hnode]
      cases node with
      | directory => cases hkind
      | file content => rfl
      | link target => rfl
    rw [List.getLast?_concat] at hplace
    exact hlast name (hplace hleaf).symm hadded

/-- Where no missing name comes before a `..` or before the name of a file that was added, a path
leads to a file afterwards if and only if it did before. -/
theorem isFile_eq (h : Extends names fs fs') (tree : fs.IsTree) {p : Path}
    (start : fs.isDirectoryAt (startOf fs.workingDirectory p) = true)
    (settled : ∀ folder name rest, fs.follow true p = .ok (.missing folder name rest) →
      ".." ∉ rest ∧ ∀ last ∈ (name :: rest).getLast?, ¬ names last) :
    fs'.isFile p = fs.isFile p := by
  cases hp : refusal? p with
  | some e => simp [isFile, lookup?, find, follow, hp]
  | none =>
    rcases h.grows.resolve_cases tree 41 (isSome_of_isDirectoryAt start) p.pieces with
      ⟨folder, name, rest, left, room, hbefore, hafter⟩ | ⟨hsame, hknown⟩
    · obtain ⟨hup, hlast⟩ := settled folder name rest (by rw [follow_of_refusal? hp, hbefore])
      have hends := h.endsNew_resolve tree room hup left
      rw [← hafter] at hends
      have hno : fs.isFile p = false := by
        rw [isFile, lookup?, find, follow_of_refusal? hp, hbefore]
        rfl
      rw [hno, Bool.eq_false_iff]
      intro hfile
      rw [isFile, lookup?, find, follow_of_refusal? hp, h.workingDirectory] at hfile
      generalize fs'.resolve true 41 _ p.pieces = walked at hends hfile
      cases walked with
      | error e => cases hfile
      | ok walked =>
        cases walked with
        | link folder target rest => exact hends
        | missing folder name rest => cases hfile
        | arrived q =>
          have hno' := h.isFile_of_endsNew hends hlast
          exact Bool.false_ne_true (hno'.symm.trans hfile)
    · have hfollow : fs'.follow true p = fs.follow true p := by
        rw [follow_of_refusal? hp, follow_of_refusal? hp, h.workingDirectory, hsame]
      rw [isFile, lookup?, find, hfollow, isFile, lookup?, find]
      cases hwalked : fs.follow true p with
      | error e => rfl
      | ok walked =>
        cases walked with
        | arrived q =>
          rw [follow_of_refusal? hp] at hwalked
          obtain ⟨node, hnode⟩ := Option.isSome_iff_exists.1 (hknown q hwalked)
          simp only [hnode, h.grows.node? hnode]
        | link _ _ _ => rfl
        | missing _ _ _ => rfl

end Extends

end BuildSteps.FileSystem
