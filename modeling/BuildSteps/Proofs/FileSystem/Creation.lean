import Mathlib.Data.List.TakeWhile
import BuildSteps.Proofs.FileSystem.Tree

/-!
# What is there once it is created

Folders and files are created where the path to them ends at a missing name. After that the path
leads to them, and nothing else is there that was not there before.
-/

namespace BuildSteps.FileSystem

variable {fs : FileSystem}

/-! ## 1. Missing names -/

/-- A walk that misses nothing but the last name has come to a folder with room for it. -/
theorem walk_of_missing {place folder : Place} {pieces : List String} {name : String}
    (h : fs.walk false place pieces = .ok (.missing folder name [])) :
    ∃ front, pieces = front ++ [name] ∧ fs.walk true place front = .ok (.arrived folder) ∧
      fs.HasRoom folder name := by
  induction pieces generalizing place with
  | nil => cases h
  | cons piece pieces ih =>
    cases fs.stride place piece with
    | goes q hgoes =>
      rw [hgoes] at h
      obtain ⟨front, rfl, hfront, hroom⟩ := ih h
      exact ⟨piece :: front, rfl, by rw [hgoes, hfront], hroom⟩
    | fails e hfails =>
      rw [hfails] at h
      cases h
    | misses room hmisses =>
      rw [hmisses] at h
      cases h
      exact ⟨[], rfl, rfl, room⟩
    | meets target hmeets =>
      rw [hmeets] at h
      split at h <;> cases h

/-- A link that does not end a walk is met before the last piece. -/
theorem walk_of_link {place folder : Place} {pieces rest : List String} {target : String}
    (h : fs.walk false place pieces = .ok (.link folder target rest)) :
    ∃ front last behind, pieces = front ++ [last] ∧ rest = behind ++ [last] ∧
      fs.walk true place front = .ok (.link folder target behind) := by
  induction pieces generalizing place with
  | nil => cases h
  | cons piece pieces ih =>
    cases fs.stride place piece with
    | goes q hgoes =>
      rw [hgoes] at h
      obtain ⟨front, last, behind, rfl, hrest, hfront⟩ := ih h
      exact ⟨piece :: front, last, behind, rfl, hrest, by rw [hgoes, hfront]⟩
    | fails e hfails =>
      rw [hfails] at h
      cases h
    | misses room hmisses =>
      rw [hmisses] at h
      cases h
    | meets other hmeets =>
      rw [hmeets] at h
      split at h
      · cases h
      · next hlast =>
        obtain ⟨rfl, rfl, rfl⟩ := Walked.link.inj (Except.ok.inj h)
        have hne : pieces ≠ [] := fun hnil => hlast (by rw [hnil]; rfl)
        obtain ⟨behind, last, rfl⟩ := (List.eq_nil_or_concat' pieces).resolve_left hne
        exact ⟨piece :: behind, last, behind, rfl, rfl, by rw [hmeets]; simp⟩

/-- A path that ends at a missing name leads, without the name, to a folder with room for it. -/
theorem resolve_of_missing {links : Nat} {place folder : Place} {pieces : List String}
    {name : String} (h : fs.resolve false links place pieces = .ok (.missing folder name [])) :
    ∃ front, pieces = front ++ [name] ∧
      fs.resolve true links place front = .ok (.arrived folder) ∧ fs.HasRoom folder name := by
  induction links generalizing place pieces with
  | zero => cases h
  | succ links ih =>
    rw [resolve] at h
    split at h
    · next folder' target rest hwalk =>
      obtain ⟨front, last, behind, rfl, rfl, hfront⟩ := walk_of_link hwalk
      split at h
      · cases h
      · next hempty =>
        obtain ⟨front', hpieces, harrive, hroom⟩ := ih h
        rw [← List.append_assoc] at hpieces
        obtain ⟨rfl, hlast⟩ := List.append_inj' hpieces rfl
        obtain rfl := (List.cons.inj hlast).1
        refine ⟨front, rfl, ?_, hroom⟩
        rw [resolve, hfront]
        simp only [if_neg hempty]
        exact harrive
    · obtain ⟨front, rfl, hfront, hroom⟩ := walk_of_missing h
      exact ⟨front, rfl, by rw [resolve, hfront], hroom⟩

/-! ## 2. What is new -/

-- entries behind the old ones are looked at last
theorem grows_of_append {fs' : FileSystem} {added : List (Place × Node)}
    (hfolder : fs'.workingDirectory = fs.workingDirectory)
    (hentries : fs'.entries = fs.entries ++ added) : fs.Grows fs' where
  workingDirectory := hfolder
  node? {place node} hnode := by
    rw [FileSystem.node?] at hnode ⊢
    split at hnode
    · next hroot => rwa [if_pos hroot]
    · next hroot =>
      obtain ⟨entry, hentry, rfl⟩ := Option.map_eq_some_iff.1 hnode
      rw [if_neg hroot, hentries, List.find?_append, hentry]
      rfl

theorem grows_insert (fs : FileSystem) (place : Place) (node : Node) :
    fs.Grows (fs.insert place node) :=
  grows_of_append rfl rfl

theorem node?_insert {place other : Place} (hnone : fs.node? other = none) (node : Node) :
    (fs.insert place node).node? other = if other = place then some node else none := by
  rw [node?] at hnone ⊢
  split at hnone
  · cases hnone
  · next hroot =>
    rw [if_neg hroot, insert, List.find?_append, Option.map_eq_none_iff.1 hnone, Option.none_or,
      List.find?_singleton]
    by_cases hsame : other = place
    · rw [if_pos (beq_iff_eq.2 hsame.symm), if_pos hsame]
      rfl
    · rw [if_neg fun heq => hsame (beq_iff_eq.1 heq).symm, if_neg hsame]
      rfl

def IsAddition (names : String → Prop) (place : Place) (node : Node) : Prop :=
  node = .directory ∨
    node.isFile = true ∧ ∃ folder name, place = folder ++ [name] ∧ names name

/-- Whether nothing is new in `fs'` but folders and files with certain names. -/
structure Extends (names : String → Prop) (fs fs' : FileSystem) : Prop where
  workingDirectory : fs'.workingDirectory = fs.workingDirectory
  entries : ∃ added, fs'.entries = fs.entries ++ added ∧
    ∀ entry ∈ added, IsAddition names entry.1 entry.2

namespace Extends

variable {names : String → Prop} {fs' fs'' : FileSystem}

theorem refl (fs : FileSystem) : Extends names fs fs :=
  ⟨rfl, [], (List.append_nil _).symm, fun _ h => absurd h List.not_mem_nil⟩

theorem trans (h : Extends names fs fs') (h' : Extends names fs' fs'') :
    Extends names fs fs'' := by
  obtain ⟨hfolder, added, hentries, hadded⟩ := h
  obtain ⟨hfolder', added', hentries', hadded'⟩ := h'
  refine ⟨hfolder'.trans hfolder, added ++ added', ?_, fun entry hentry => ?_⟩
  · rw [hentries', hentries, List.append_assoc]
  · exact (List.mem_append.1 hentry).elim (hadded entry) (hadded' entry)

theorem insert {place : Place} {node : Node} (h : IsAddition names place node) :
    Extends names fs (fs.insert place node) :=
  ⟨rfl, [(place, node)], rfl, fun entry hentry => by rwa [List.mem_singleton.1 hentry]⟩

theorem grows (h : Extends names fs fs') : fs.Grows fs' := by
  obtain ⟨_, hentries, -⟩ := h.entries
  exact grows_of_append h.workingDirectory hentries

/-- What stands at a place stood there before or was added. -/
theorem node?_cases (h : Extends names fs fs') {place : Place} {node : Node}
    (hnode : fs'.node? place = some node) :
    fs.node? place = some node ∨ fs.node? place = none ∧ IsAddition names place node := by
  cases hbefore : fs.node? place with
  | some old => exact .inl (hbefore.symm ▸ (h.grows.node? hbefore).symm.trans hnode)
  | none =>
    refine .inr ⟨rfl, ?_⟩
    obtain ⟨added, hentries, hadded⟩ := h.entries
    rw [node?] at hnode hbefore
    split at hbefore
    · cases hbefore
    · next hroot =>
      rw [if_neg hroot, hentries, List.find?_append, Option.map_eq_none_iff.1 hbefore,
        Option.none_or] at hnode
      obtain ⟨entry, hentry, rfl⟩ := Option.map_eq_some_iff.1 hnode
      have hplace := List.find?_some hentry
      rw [← beq_iff_eq.1 hplace]
      exact hadded entry (List.mem_of_find?_eq_some hentry)

end Extends

theorem eq_insert_of_entries {fs' : FileSystem} {place : Place} {node : Node}
    (hfolder : fs'.workingDirectory = fs.workingDirectory)
    (hentries : fs'.entries = fs.entries ++ [(place, node)]) : fs' = fs.insert place node := by
  rw [insert, ← hfolder, ← hentries]

/-! ## 3. Folders -/

variable {names : String → Prop} {made : FileSystem} {p : Path}

theorem makeDirectory_ok (h : fs.makeDirectory p = .ok made) :
    refusal? p = none ∧ ∃ folder name, made = fs.insert (folder ++ [name]) .directory ∧
      fs.resolve false 41 (startOf fs.workingDirectory p) (dropTrailing p.pieces) =
        .ok (.missing folder name []) := by
  rw [makeDirectory] at h
  split at h
  · cases h
  · next hp =>
    refine ⟨hp, ?_⟩
    split at h
    · cases h
    · next folder name hmissing => exact ⟨folder, name, (Except.ok.inj h).symm, hmissing⟩
    · cases h
    · cases h

theorem extends_makeDirectory (h : fs.makeDirectory p = .ok made) : Extends names fs made := by
  obtain ⟨-, _, _, rfl, -⟩ := makeDirectory_ok h
  exact .insert (.inl rfl)

theorem extends_makeDirectoriesWithin (depth : Nat) (fs : FileSystem) (p : Path) :
    Extends names fs (makeDirectoriesWithin depth fs p).2 := by
  induction depth generalizing fs p with
  | zero => exact .refl fs
  | succ depth ih =>
    rw [makeDirectoriesWithin]
    split
    · exact .refl fs
    · split
      · next made hmade => exact extends_makeDirectory hmade
      · split
        · exact .refl fs
        · next parent _ =>
          have hparent := ih fs parent
          split
          · next made hmade => rwa [hmade] at hparent
          · next made hmade =>
            rw [hmade] at hparent
            split
            · next done hdone => exact hparent.trans (extends_makeDirectory hdone)
            · exact hparent
      · exact .refl fs

/-- However far it gets, creating a folder with those around it creates nothing but folders. -/
theorem extends_makeDirectories (names : String → Prop) (fs : FileSystem) (p : Path) :
    Extends names fs (fs.makeDirectories p).2 :=
  extends_makeDirectoriesWithin _ fs p

theorem exists_append_dropTrailing (pieces : List String) :
    ∃ silent, pieces = dropTrailing pieces ++ silent ∧ ∀ piece ∈ silent, piece = "" := by
  refine ⟨(pieces.reverse.takeWhile (· == "")).reverse, ?_, fun piece hpiece => ?_⟩
  · rw [dropTrailing, ← List.reverse_append, List.takeWhile_append_dropWhile, List.reverse_reverse]
  · have hempty := List.mem_takeWhile_imp (List.mem_reverse.1 hpiece)
    exact beq_iff_eq.1 hempty

/-- Empty pieces make no difference to a walk that is in a folder. -/
theorem walk_of_silent {place : Place} (h : fs.isDirectoryAt place = true)
    {silent : List String} (hsilent : ∀ piece ∈ silent, piece = "") :
    fs.walk true place silent = .ok (.arrived place) := by
  induction silent with
  | nil => rfl
  | cons piece silent ih =>
    obtain ⟨hpiece, hrest⟩ := List.forall_mem_cons.1 hsilent
    rw [walk, if_neg (by rw [h]; decide), if_pos (.inl hpiece), ih hrest]

/-- A path that ends at a missing name leads to what is put there, also with separators behind the
name if that is a folder. -/
theorem find_insert {folder : Place} {name : String} {pieces silent : List String} {node : Node}
    (hp : refusal? p = none) (hsplit : p.pieces = pieces ++ silent)
    (hmissing : fs.resolve false 41 (startOf fs.workingDirectory p) pieces =
      .ok (.missing folder name []))
    (hsilent : ∀ piece ∈ silent, piece = "")
    (hnode : node = .directory ∨ node.isFile = true ∧ silent = []) :
    (fs.insert (folder ++ [name]) node).find p = .ok (folder ++ [name]) := by
  have hgrows := fs.grows_insert (folder ++ [name]) node
  obtain ⟨front, hpieces, hfront, hroom⟩ := resolve_of_missing hmissing
  -- the way to the folder around it is the same as before
  obtain ⟨left, hleft⟩ := resolve_append (hgrows.resolve hfront)
  have hthere : (fs.insert (folder ++ [name]) node).node? (folder ++ [name]) = some node := by
    rw [node?_insert hroom.free, if_pos rfl]
  have hwalk : (fs.insert (folder ++ [name]) node).walk true folder (name :: silent) =
      .ok (.arrived (folder ++ [name])) := by
    rw [walk, if_neg (by rw [hgrows.isDirectoryAt hroom.isDirectoryAt]; decide),
      if_neg hroom.notSilent, if_neg hroom.notParent, if_neg (Nat.not_lt.2 hroom.short), hthere]
    rcases hnode with rfl | ⟨hfile, rfl⟩
    · exact walk_of_silent (by rw [isDirectoryAt, hthere]; rfl) hsilent
    · cases node with
      | file content => rfl
      | directory => cases hfile
      | link target => cases hfile
  rw [find, follow_of_refusal? hp, hgrows.workingDirectory, hsplit, hpieces, List.append_assoc,
    hleft, resolve, List.singleton_append, hwalk]

theorem find_of_makeDirectory (h : fs.makeDirectory p = .ok made) :
    ∃ place, made = fs.insert place .directory ∧ fs.node? place = none ∧
      made.find p = .ok place := by
  obtain ⟨hp, folder, name, rfl, hmissing⟩ := makeDirectory_ok h
  obtain ⟨-, -, -, hroom⟩ := resolve_of_missing hmissing
  obtain ⟨silent, hsplit, hsilent⟩ := exists_append_dropTrailing p.pieces
  exact ⟨_, rfl, hroom.free, find_insert hp hsplit hmissing hsilent (.inl rfl)⟩

theorem isDirectory_of_makeDirectory (h : fs.makeDirectory p = .ok made) :
    made.isDirectory p = true := by
  obtain ⟨place, rfl, hfree, hfind⟩ := find_of_makeDirectory h
  rw [isDirectory, lookup?, hfind]
  simp only [node?_insert hfree, if_pos]
  rfl

/-- Where creating a folder with those around it succeeds, the path leads to a folder or names
none. -/
theorem isDirectory_of_makeDirectories (h : fs.makeDirectories p = (.ok (), made)) :
    p.components = [] ∨ made.isDirectory p = true := by
  rw [makeDirectories, makeDirectoriesWithin] at h
  split at h
  · next hempty => exact .inl (List.isEmpty_iff.1 hempty)
  · right
    split at h
    · next done hdone =>
      obtain rfl := (Prod.mk.inj h).2
      exact isDirectory_of_makeDirectory hdone
    · split at h
      · cases (Prod.mk.inj h).1
      · split at h
        · cases (Prod.mk.inj h).1
        · split at h
          · next done hdone =>
            obtain rfl := (Prod.mk.inj h).2
            exact isDirectory_of_makeDirectory hdone
          · obtain ⟨hresult, rfl⟩ := Prod.mk.inj h
            split at hresult
            · next hfolder => exact hfolder
            · cases hresult
    · obtain ⟨hresult, rfl⟩ := Prod.mk.inj h
      split at hresult
      · next hfolder => exact hfolder
      · cases hresult

/-- A path without components names no folder that could be missing. -/
theorem makeDirectories_of_components (fs : FileSystem) (h : p.components = []) :
    fs.makeDirectories p = (.ok (), fs) := by
  rw [makeDirectories, makeDirectoriesWithin, if_pos (List.isEmpty_iff.2 h)]

/-! ## 4. Files -/

theorem writeNew_ok {content : List UInt8} (h : fs.writeNew p content = .ok made) :
    refusal? p = none ∧ ∃ folder name, made = fs.insert (folder ++ [name]) (.file content) ∧
      fs.resolve false 41 (startOf fs.workingDirectory p) p.pieces =
        .ok (.missing folder name []) := by
  rw [writeNew] at h
  split at h
  · cases h
  · next folder name hmissing =>
    rw [follow] at hmissing
    split at hmissing
    · cases hmissing
    · next hp => exact ⟨hp, folder, name, (Except.ok.inj h).symm, hmissing⟩
  · split at h <;> cases h
  · cases h

theorem extends_writeNew {content : List UInt8} (h : fs.writeNew p content = .ok made)
    (hnames : ∀ front name, p.pieces = front ++ [name] → names name) : Extends names fs made := by
  obtain ⟨-, folder, name, rfl, hmissing⟩ := writeNew_ok h
  obtain ⟨front, hpieces, -⟩ := resolve_of_missing hmissing
  exact .insert (.inr ⟨rfl, folder, name, rfl, hnames front name hpieces⟩)

theorem find_of_writeNew {content : List UInt8} (h : fs.writeNew p content = .ok made) :
    ∃ place, made = fs.insert place (.file content) ∧ fs.node? place = none ∧
      made.find p = .ok place := by
  obtain ⟨hp, folder, name, rfl, hmissing⟩ := writeNew_ok h
  obtain ⟨-, -, -, hroom⟩ := resolve_of_missing hmissing
  exact ⟨_, rfl, hroom.free, find_insert hp (List.append_nil _).symm hmissing
    (fun _ hpiece => absurd hpiece List.not_mem_nil) (.inr ⟨rfl, rfl⟩)⟩

end BuildSteps.FileSystem
