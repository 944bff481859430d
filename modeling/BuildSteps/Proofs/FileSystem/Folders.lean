import BuildSteps.Proofs.FileSystem.Tree
import BuildSteps.Proofs.Path.Outwards

/-!
# Ways over folders

Where no link is on the way, a path leads where its components say: a name goes down, `..` goes up.
All that the way passes are folders, so that a start of the way leads somewhere as well, and so does
another spelling of it.
-/

namespace BuildSteps.FileSystem

open BuildSteps.Path (Component componentOfPiece? resolveNames)

variable {fs : FileSystem} {place q : Place}

/-! ## 1. Ways -/

/-- Whether components lead from one place to another by way of folders only. -/
inductive OnFolders (fs : FileSystem) : Place → List Component → Place → Prop
  | here {place : Place} (folder : fs.isDirectoryAt place = true) : OnFolders fs place [] place
  | down {place : Place} {name : String} {rest : List Component} {q : Place}
      (folder : fs.isDirectoryAt place = true) (short : name.utf8ByteSize ≤ 255)
      (onwards : OnFolders fs (place ++ [name]) rest q) : OnFolders fs place (.name name :: rest) q
  | up {place : Place} {rest : List Component} {q : Place}
      (folder : fs.isDirectoryAt place = true) (onwards : OnFolders fs place.dropLast rest q) :
      OnFolders fs place (.parent :: rest) q

theorem resolveNames_map_name (place : Place) : resolveNames (place.map .name) = place :=
  Path.resolveNames_append_names [] place

namespace OnFolders

theorem isDirectoryAt_start {components : List Component} (h : OnFolders fs place components q) :
    fs.isDirectoryAt place = true := by
  cases h with
  | here folder => exact folder
  | down folder short onwards => exact folder
  | up folder onwards => exact folder

/-- The place at the end is the one that the components name. -/
theorem eq_resolveNames {components : List Component} (h : OnFolders fs place components q) :
    q = resolveNames (place.map .name ++ components) := by
  induction h with
  | here folder => rw [List.append_nil, resolveNames_map_name]
  | @down place name rest q folder short onwards ih =>
    rw [ih, List.map_append, List.append_assoc]
    rfl
  | @up place rest q folder onwards ih =>
    rw [ih, Path.resolveNames_append, resolveNames_map_name, Path.resolveNames_append,
      resolveNames_map_name, List.foldl_cons]

/-- What the way starts with leads somewhere by itself. -/
theorem front {front back : List Component} (h : OnFolders fs place (front ++ back) q) :
    ∃ r, OnFolders fs place front r := by
  induction front generalizing place with
  | nil => exact ⟨place, .here h.isDirectoryAt_start⟩
  | cons c front ih =>
    cases h with
    | down folder short onwards =>
      obtain ⟨r, hr⟩ := ih onwards
      exact ⟨r, .down folder short hr⟩
    | up folder onwards =>
      obtain ⟨r, hr⟩ := ih onwards
      exact ⟨r, .up folder hr⟩

/-- A walk along pieces that stand for the components takes the way, whatever comes behind it. -/
theorem walk {pieces : List String}
    (h : OnFolders fs place (pieces.filterMap componentOfPiece?) q) (followLast : Bool)
    (rest : List String) :
    fs.walk followLast place (pieces ++ rest) = fs.walk followLast q rest := by
  induction pieces generalizing place with
  | nil =>
    cases h
    rfl
  | cons piece pieces ih =>
    have hfolder : ¬ (!fs.isDirectoryAt place) = true := by rw [h.isDirectoryAt_start]; decide
    rw [List.cons_append, FileSystem.walk, if_neg hfolder]
    by_cases hsilent : piece = "" ∨ piece = "."
    · rw [if_pos hsilent]
      rw [List.filterMap_cons_none (Path.componentOfPiece?_of_silent hsilent)] at h
      exact ih h
    rw [if_neg hsilent]
    by_cases hparent : piece = ".."
    · have hpiece : componentOfPiece? piece = some .parent := by rw [hparent]; rfl
      rw [if_pos hparent]
      rw [List.filterMap_cons_some hpiece] at h
      cases h with
      | up folder onwards => exact ih onwards
    · have hpiece : componentOfPiece? piece = some (.name piece) := by
        rw [componentOfPiece?, if_neg hsilent, if_neg hparent]
      rw [List.filterMap_cons_some hpiece] at h
      cases h with
      | down folder short onwards =>
        rw [if_neg hparent, if_neg (Nat.not_lt.2 short),
          node?_of_isDirectoryAt onwards.isDirectoryAt_start]
        exact ih onwards

end OnFolders

/-- A walk that meets no link and comes to a folder has passed folders only. -/
theorem onFolders_of_walk {followLast : Bool} {pieces : List String}
    (h : fs.walk followLast place pieces = .ok (.arrived q)) (hq : fs.isDirectoryAt q = true) :
    OnFolders fs place (pieces.filterMap componentOfPiece?) q := by
  induction pieces generalizing place with
  | nil =>
    obtain rfl := Walked.arrived.inj (Except.ok.inj h)
    exact .here hq
  | cons piece pieces ih =>
    by_cases hfolder : fs.isDirectoryAt place = true
    · rw [FileSystem.walk, if_neg (by rw [hfolder]; decide)] at h
      split at h
      · next hsilent =>
        rw [List.filterMap_cons_none (Path.componentOfPiece?_of_silent hsilent)]
        exact ih h
      · next hsilent =>
        split at h
        · next hparent =>
          have hpiece : componentOfPiece? piece = some .parent := by rw [hparent]; rfl
          rw [List.filterMap_cons_some hpiece]
          exact .up hfolder (ih h)
        · next hparent =>
          have hpiece : componentOfPiece? piece = some (.name piece) := by
            rw [componentOfPiece?, if_neg hsilent, if_neg hparent]
          rw [List.filterMap_cons_some hpiece]
          split at h
          · cases h
          · next hlong =>
            split at h
            · cases h
            -- a link at the end is no folder
            · next target hnode =>
              split at h
              · obtain rfl := Walked.arrived.inj (Except.ok.inj h)
                rw [isDirectoryAt, hnode] at hq
                cases hq
              · cases h
            · exact .down hfolder (Nat.not_lt.1 hlong) (ih h)
    · rw [FileSystem.walk, if_pos (by rw [Bool.eq_false_iff.2 hfolder]; rfl)] at h
      cases h

/-! ## 2. Paths and the folders around them -/

/-- Whether a path leads to a place with no link on the way. -/
def LeadsTo (fs : FileSystem) (p : Path) (place : Place) : Prop :=
  fs.walk false (startOf fs.workingDirectory p) p.pieces = .ok (.arrived place)

instance (p : Path) : Decidable (fs.LeadsTo p place) :=
  inferInstanceAs (Decidable (fs.walk false _ _ = _))

/-- The place that a path names as long as no link is on the way. -/
def placeOf (fs : FileSystem) (p : Path) : Place :=
  resolveNames ((startOf fs.workingDirectory p).map .name ++ p.inner)

/-- Whether the way of a path goes over folders to the place that the path names. -/
def Passes (fs : FileSystem) (p : Path) : Prop :=
  OnFolders fs (startOf fs.workingDirectory p) p.inner (fs.placeOf p)

theorem LeadsTo.passes {p : Path} (h : fs.LeadsTo p place)
    (hfolder : fs.isDirectoryAt place = true) : fs.Passes p ∧ fs.placeOf p = place := by
  have hway := onFolders_of_walk h hfolder
  have hplace : fs.placeOf p = place := hway.eq_resolveNames.symm
  exact ⟨by rw [Passes, hplace]; exact hway, hplace⟩

theorem Passes.of_encloses {p folder : Path} (h : fs.Passes p) (hencloses : folder.Encloses p) :
    fs.Passes folder := by
  obtain ⟨last, hsaid⟩ := hencloses.said
  rw [Passes, hsaid] at h
  obtain ⟨r, hr⟩ := h.front
  have hstart : startOf fs.workingDirectory folder = startOf fs.workingDirectory p := by
    rw [startOf, startOf, hencloses.absolute]
  rw [Passes, placeOf, hstart, ← hr.eq_resolveNames]
  exact hr

/-! ## 3. Names in folders -/

def holdsFile (fs : FileSystem) (folder : Place) (name : String) : Bool :=
  match fs.resolve true 41 folder [name] with
  | .ok (.arrived place) => (fs.node? place).any Node.isFile
  | _ => false

variable {folder : Path} {name : String}

theorem Passes.walk_join (h : fs.Passes folder) (hname : Path.IsName name) (followLast : Bool) :
    fs.walk followLast (startOf fs.workingDirectory (folder.join ⟨name⟩))
      (folder.join ⟨name⟩).pieces = fs.walk followLast (fs.placeOf folder) [name] := by
  obtain ⟨front, hpieces, hfront⟩ := Path.pieces_join_name hname folder
  have hinner : front.filterMap componentOfPiece? = folder.inner := by
    rcases hfront with ⟨hfront, -⟩ | hfront
    · rw [Path.inner, hfront]
    · rw [Path.inner, hfront, List.filterMap_append]
      exact (List.append_nil _).symm
  rw [startOf, Path.isAbsolute_join_name hname, hpieces]
  rw [Passes, ← hinner] at h
  exact h.walk followLast [name]

/-- A file in a folder is found by its path when the folder holds it. -/
theorem Passes.isFile_join (h : fs.Passes folder) (hname : Path.IsName name)
    (hpath : refusal? (folder.join ⟨name⟩) = none) :
    fs.isFile (folder.join ⟨name⟩) = fs.holdsFile (fs.placeOf folder) name := by
  have hresolve : fs.resolve true 41 (startOf fs.workingDirectory (folder.join ⟨name⟩))
      (folder.join ⟨name⟩).pieces = fs.resolve true 41 (fs.placeOf folder) [name] := by
    rw [resolve, h.walk_join hname, resolve]
  rw [isFile, lookup?, find, follow_of_refusal? hpath, hresolve, holdsFile]
  generalize fs.resolve true 41 (fs.placeOf folder) [name] = walked
  rcases walked with e | _ | _ | _ <;> rfl

theorem walk_of_holdsFile (hname : Path.IsName name) (h : fs.holdsFile place name = true) :
    fs.walk false place [name] = .ok (.arrived (place ++ [name])) := by
  have hsilent : ¬ (name = "" ∨ name = ".") := fun hor => hor.elim hname.nonempty hname.notCurrent
  rw [holdsFile, resolve, walk] at h
  rw [walk]
  by_cases hfolder : fs.isDirectoryAt place = true
  · rw [if_neg (by rw [hfolder]; decide), if_neg hsilent, if_neg hname.notParent] at h ⊢
    by_cases hlong : name.utf8ByteSize > 255
    · rw [if_pos hlong] at h
      cases h
    · rw [if_neg hlong] at h ⊢
      cases hnode : fs.node? (place ++ [name]) with
      | none =>
        rw [hnode] at h
        cases h
      | some node => cases node <;> rfl
  · rw [if_pos (by rw [Bool.eq_false_iff.2 hfolder]; rfl)] at h
    cases h

theorem Passes.leadsTo_join (h : fs.Passes folder) (hname : Path.IsName name)
    (hfile : fs.holdsFile (fs.placeOf folder) name = true) :
    fs.LeadsTo (folder.join ⟨name⟩) (fs.placeOf folder ++ [name]) := by
  rw [LeadsTo, h.walk_join hname, walk_of_holdsFile hname hfile]

/-- With a path, the same name in the folder around it can be looked up. -/
theorem refusal?_join_of_parent? {p : Path} (hname : Path.IsName name)
    (hparent : p.parent? = some folder) (h : refusal? (p.join ⟨name⟩) = none) :
    refusal? (folder.join ⟨name⟩) = none := by
  obtain ⟨-, hnul, hlong⟩ := refusal?_eq_none_iff.1 h
  obtain ⟨separator, -, htext⟩ := Path.text_join (p := p) hname.isAbsolute
  obtain ⟨separator', -, htext'⟩ := Path.text_join (p := folder) hname.isAbsolute
  rw [htext, String.toList_append, String.toList_append, List.mem_append, List.mem_append] at hnul
  refine refusal?_eq_none_iff.2 ⟨fun hempty => ?_, ?_, ?_⟩
  · rw [htext', String.append_eq_empty_iff] at hempty
    exact hname.nonempty hempty.2
  · exact Path.not_mem_join (by decide)
      (Path.not_mem_parent? (by decide) (fun hc => hnul (.inl (.inl hc))) hparent)
      fun hc => hnul (.inr hc)
  · exact (Path.utf8ByteSize_join_le hname hparent).trans hlong

/-- On the way of a path that leads to a folder, a name can be looked up in every folder that the
text of the path names. -/
theorem passes_of_mem_selfAndParents {p : Path} (hname : Path.IsName name) (hp : fs.Passes p)
    (hpath : refusal? (p.join ⟨name⟩) = none) :
    ∀ folder ∈ p.selfAndParents, fs.Passes folder ∧ refusal? (folder.join ⟨name⟩) = none :=
  Path.selfAndParents_induction
    (fun _ _ hparent ⟨hp, hpath⟩ => ⟨hp.of_encloses (Path.encloses_of_parent? hparent),
      refusal?_join_of_parent? hname hparent hpath⟩) ⟨hp, hpath⟩

/-! ## 4. Places beside each other -/

def Beside (place other : Place) : Prop :=
  other = place ∨ other = place.dropLast ∨ place = other.dropLast

theorem beside_placeOf {p folder : Path} (h : folder.Encloses p) :
    Beside (fs.placeOf p) (fs.placeOf folder) := by
  obtain ⟨last, hsaid⟩ := h.said
  have hstart : startOf fs.workingDirectory folder = startOf fs.workingDirectory p := by
    rw [startOf, startOf, h.absolute]
  cases last with
  | none =>
    rw [Option.toList_none, List.append_nil] at hsaid
    exact .inl (by rw [placeOf, placeOf, hstart, hsaid])
  | some last =>
    have hplace : fs.placeOf p = _ := congrArg resolveNames (congrArg _ hsaid)
    rw [Option.toList_some, ← List.append_assoc, Path.resolveNames_append, ← hstart,
      ← placeOf] at hplace
    cases last with
    | root => exact .inl hplace.symm
    | current => exact .inl hplace.symm
    | parent => exact .inr (.inr hplace)
    | name text => exact .inr (.inl (by rw [hplace]; exact List.dropLast_concat.symm))

/-- A row of places, each beside the next one, that starts below a place and does not come to it
stays below it. -/
theorem isPrefix_of_not_mem {places : List Place} (hchain : places.IsChain Beside)
    {first outer : Place} (hfirst : places.head? = some first) (houter : outer <+: first)
    (hmem : outer ∉ places) : ∀ place ∈ places, outer <+: place := by
  induction places generalizing first with
  | nil => cases hfirst
  | cons place places ih =>
    obtain rfl : place = first := Option.some.inj hfirst
    obtain ⟨hne, hmem⟩ := not_or.1 (List.mem_cons.not.1 hmem)
    rw [List.forall_mem_cons]
    refine ⟨houter, ?_⟩
    cases places with
    | nil => exact fun _ h => absurd h List.not_mem_nil
    | cons next places =>
      obtain ⟨hbeside, hchain⟩ := List.isChain_cons_cons.1 hchain
      have hdropLast : outer <+: place.dropLast := by
        obtain ⟨below, rfl⟩ := houter
        have hbelow : below ≠ [] := fun hnil => hne (by rw [hnil, List.append_nil])
        rw [List.dropLast_append_of_ne_nil hbelow]
        exact List.prefix_append outer _
      refine ih hchain rfl ?_ hmem
      rcases hbeside with rfl | rfl | rfl
      · exact houter
      · exact hdropLast
      · exact houter.trans (List.dropLast_prefix next)

/-- So the first place of the row that has a property is as near as any place around its start. -/
theorem isPrefix_of_find? {places : List Place} (hchain : places.IsChain Beside)
    {first found outer : Place} {has : Place → Bool} (hfirst : places.head? = some first)
    (hfound : places.find? has = some found) (houter : outer <+: first) (h : has outer = true) :
    outer <+: found := by
  obtain ⟨-, front, behind, rfl, hfront⟩ := List.find?_eq_some_iff_append.1 hfound
  rw [List.append_cons] at hchain
  have hhead : (front ++ [found]).head? = some first := by
    rw [← hfirst, List.head?_append, List.head?_append]
    rfl
  by_cases hmem : outer ∈ front ++ [found]
  · rcases List.mem_append.1 hmem with hmem | hmem
    · have hno := hfront outer hmem
      rw [h] at hno
      cases hno
    · obtain rfl := List.mem_singleton.1 hmem
      exact List.prefix_rfl
  · exact isPrefix_of_not_mem hchain.left_of_append hhead houter hmem found (by simp)

/-- Without `..` a path leads down. -/
theorem isPrefix_resolveNames {components more : List Component} (h : .parent ∉ more) :
    resolveNames components <+: resolveNames (components ++ more) := by
  induction more using List.reverseRecOn with
  | nil => exact (List.append_nil components).symm ▸ List.prefix_rfl
  | append_singleton more last ih =>
    obtain ⟨hmore, hlast⟩ := not_or.1 (List.mem_append.not.1 h)
    rw [← List.append_assoc, Path.resolveNames_append]
    refine (ih hmore).trans ?_
    cases last with
    | parent => exact absurd (List.mem_singleton_self _) hlast
    | name text => exact List.prefix_append _ _
    | root => exact List.prefix_rfl
    | current => exact List.prefix_rfl

/-- So the folders that its text names lie between its start and its end. -/
theorem isPrefix_placeOf {p folder : Path} (hfolder : folder ∈ p.selfAndParents)
    (hdown : ".." ∉ p.pieces) :
    startOf fs.workingDirectory p <+: fs.placeOf folder ∧ fs.placeOf folder <+: fs.placeOf p := by
  obtain ⟨habsolute, rest, hrest⟩ := Path.inner_of_mem_selfAndParents folder hfolder
  rw [← Path.parent_mem_inner_iff, ← hrest, List.mem_append, not_or] at hdown
  have hstart : startOf fs.workingDirectory folder = startOf fs.workingDirectory p := by
    rw [startOf, startOf, habsolute]
  rw [placeOf, placeOf, hstart, ← hrest, ← List.append_assoc]
  refine ⟨?_, isPrefix_resolveNames hdown.2⟩
  have hinner := @isPrefix_resolveNames ((startOf fs.workingDirectory p).map .name) _ hdown.1
  rwa [resolveNames_map_name] at hinner

/-- The outermost of them is the place that the path starts from. -/
theorem startOf_mem_places (fs : FileSystem) (p : Path) :
    startOf fs.workingDirectory p ∈ p.selfAndParents.map fs.placeOf := by
  obtain ⟨folder, hfolder, hsilent⟩ := p.exists_silent_selfAndParents
  refine List.mem_map.2 ⟨folder, hfolder, ?_⟩
  rw [placeOf, hsilent, List.append_nil, resolveNames_map_name, startOf, startOf,
    (Path.inner_of_mem_selfAndParents folder hfolder).1]

end BuildSteps.FileSystem
