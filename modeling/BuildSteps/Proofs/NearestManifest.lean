import Mathlib.Data.List.Find
import Mathlib.Data.List.Infix
import BuildSteps.Workspace
import BuildSteps.Proofs.FileSystem.Folders

/-!
# The manifest that is found

A manifest is looked for in a folder and then outwards along the text of the path to this folder.
That is the way from folder to enclosing folder as long as a name is taken off. A `..` is taken off
like a name, though, which leads down again, and a relative path is used up at the working
directory, however many folders there are around it.
-/

namespace BuildSteps.Workspace

/-! ## 1. The search -/

theorem isName_manifest : Path.IsName Manifest.fileName := by
  constructor <;> decide

/-- The search comes to all the folders that the text of a path names. -/
theorem findFrom?_eq (fs : FileSystem) {steps : Nat} {folder : Path} (h : folder.extent < steps) :
    findFrom? fs steps folder =
      (folder.selfAndParents.find? fun p => fs.isFile (p.join ⟨Manifest.fileName⟩)).map
        fun p => p.join ⟨Manifest.fileName⟩ := by
  induction steps generalizing folder with
  | zero => exact absurd h (Nat.not_lt_zero _)
  | succ steps ih =>
    rw [findFrom?]
    cases hparent : folder.parent? with
    | none =>
      rw [Path.selfAndParents_of_none hparent, List.find?_singleton]
      split <;> rfl
    | some parent =>
      have hsmaller := (Path.encloses_of_parent? hparent).smaller
      rw [Path.selfAndParents_of_some hparent, List.find?_cons]
      split
      · next hfile => rw [hfile]; rfl
      · next hfile =>
        rw [Bool.eq_false_iff.2 hfile]
        exact ih (by omega)

theorem findManifest_eq (fs : FileSystem) (start : Path) :
    findManifest fs start =
      match start.selfAndParents.find? fun folder =>
          fs.isFile (folder.join ⟨Manifest.fileName⟩) with
      | some folder => .ok (folder.join ⟨Manifest.fileName⟩)
      | none => .error (.notFound (start.join ⟨Manifest.fileName⟩)) := by
  have henough : start.extent < start.pieces.length + 2 := by
    have hinner : start.inner.length ≤ start.pieces.length := List.length_filterMap_le _ _
    have hextent := start.extent_le
    omega
  unfold findManifest
  rw [findFrom?_eq fs henough]
  cases start.selfAndParents.find? _ <;> rfl

/-! ## 2. The nearest manifest -/

def holdsManifest (fs : FileSystem) (folder : Place) : Bool :=
  fs.holdsFile folder Manifest.fileName

/-- Whether a folder is the first, from a place outwards to the root, that holds a manifest. -/
structure IsNearest (fs : FileSystem) (place folder : Place) : Prop where
  around : folder <+: place
  holds : holdsManifest fs folder = true
  nearest : ∀ other, other <+: place → holdsManifest fs other = true → other <+: folder

instance (fs : FileSystem) (place folder : Place) : Decidable (IsNearest fs place folder) :=
  decidable_of_iff (folder <+: place ∧ holdsManifest fs folder = true ∧
      ∀ other ∈ place.inits, holdsManifest fs other = true → other <+: folder)
    ⟨fun ⟨around, holds, nearest⟩ => ⟨around, holds, fun other h => nearest other
      ((List.mem_inits other place).2 h)⟩, fun h => ⟨h.1, h.2, fun other hother =>
        h.nearest other ((List.mem_inits other place).1 hother)⟩⟩

/-- Whether what the search has to say is right for the folder at a place: it finds the nearest
manifest, or that there is none. -/
def FindsNearest (fs : FileSystem) (start : Path) (place : Place) : Prop :=
  match findManifest fs start with
  | .ok file => ∃ folder, IsNearest fs place folder ∧
      fs.LeadsTo file (folder ++ [Manifest.fileName])
  | .error e => e = .notFound (start.join ⟨Manifest.fileName⟩) ∧
      ∀ folder, folder <+: place → holdsManifest fs folder = false

/-- Whether a path leads to a folder, with no link on the way, and is short enough to look a
manifest up in it. -/
structure StartsAt (fs : FileSystem) (start : Path) (place : Place) : Prop where
  leads : fs.LeadsTo start place
  folder : fs.isDirectoryAt place = true
  lookedUp : FileSystem.refusal? (start.join ⟨Manifest.fileName⟩) = none

instance (fs : FileSystem) (start : Path) (place : Place) : Decidable (StartsAt fs start place) :=
  decidable_of_iff (fs.LeadsTo start place ∧ fs.isDirectoryAt place = true ∧
      FileSystem.refusal? (start.join ⟨Manifest.fileName⟩) = none)
    ⟨fun ⟨leads, folder, lookedUp⟩ => ⟨leads, folder, lookedUp⟩, fun h => ⟨h.1, h.2, h.3⟩⟩

variable {fs : FileSystem} {start : Path} {place : Place}

namespace StartsAt

theorem passes (h : StartsAt fs start place) {folder : Path}
    (hfolder : folder ∈ start.selfAndParents) : fs.Passes folder ∧
      fs.isFile (folder.join ⟨Manifest.fileName⟩) = holdsManifest fs (fs.placeOf folder) := by
  obtain ⟨hpasses, hpath⟩ := FileSystem.passes_of_mem_selfAndParents isName_manifest
    (h.leads.passes h.folder).1 h.lookedUp folder hfolder
  exact ⟨hpasses, hpasses.isFile_join isName_manifest hpath⟩

/-- The search goes along the places that the folders around the start name. -/
theorem find?_places (h : StartsAt fs start place) :
    (start.selfAndParents.map fs.placeOf).find? (holdsManifest fs) =
      (start.selfAndParents.find? fun folder =>
        fs.isFile (folder.join ⟨Manifest.fileName⟩)).map fs.placeOf := by
  rw [List.find?_map]
  congr 1
  exact List.find?_congr fun folder hfolder => (h.passes hfolder).2.symm

theorem head?_places (h : StartsAt fs start place) :
    (start.selfAndParents.map fs.placeOf).head? = some place := by
  rw [List.head?_map, Path.head?_selfAndParents, Option.map_some,
    (h.leads.passes h.folder).2]

theorem isChain_places (fs : FileSystem) (start : Path) :
    (start.selfAndParents.map fs.placeOf).IsChain FileSystem.Beside :=
  List.isChain_map_of_isChain fs.placeOf
    (fun p q (h : q.Encloses p) => show FileSystem.Beside (fs.placeOf p) (fs.placeOf q) from
      FileSystem.beside_placeOf h) start.isChain_selfAndParents

/-- A manifest that the search misses stands further out than all the places it comes to. -/
theorem outside_of_missed (h : StartsAt fs start place)
    (hmissed : ∀ folder ∈ start.selfAndParents.map fs.placeOf, ¬ holdsManifest fs folder = true)
    {folder : Place} (hfolder : folder <+: place) (hholds : holdsManifest fs folder = true) :
    folder <+: FileSystem.startOf fs.workingDirectory start ∧
      folder ≠ FileSystem.startOf fs.workingDirectory start := by
  have hstart := FileSystem.startOf_mem_places fs start
  have hmem : folder ∉ start.selfAndParents.map fs.placeOf := fun hmem => hmissed folder hmem hholds
  exact ⟨FileSystem.isPrefix_of_not_mem (isChain_places fs start) h.head?_places hfolder hmem _
    hstart, fun heq => hmem (heq ▸ hstart)⟩

/-- From the root the search misses none. -/
theorem eq_false_of_missed (h : StartsAt fs start place) (habsolute : start.isAbsolute = true)
    (hmissed : ∀ folder ∈ start.selfAndParents.map fs.placeOf, ¬ holdsManifest fs folder = true)
    {folder : Place} (hfolder : folder <+: place) : holdsManifest fs folder = false := by
  rw [Bool.eq_false_iff]
  intro hholds
  obtain ⟨hstarts, hne⟩ := h.outside_of_missed hmissed hfolder hholds
  rw [FileSystem.startOf, if_pos habsolute] at hstarts hne
  exact hne (List.prefix_nil.1 hstarts)

end StartsAt

/-- What is found first is right as soon as it stands around the start at all. -/
theorem findsNearest_iff (h : StartsAt fs start place) :
    FindsNearest fs start place ↔
      match (start.selfAndParents.map fs.placeOf).find? (holdsManifest fs) with
      | some folder => folder <+: place
      | none => ∀ folder, folder <+: place → holdsManifest fs folder = false := by
  have hplaces := h.find?_places
  unfold FindsNearest
  rw [findManifest_eq]
  cases hfound : start.selfAndParents.find? fun folder =>
      fs.isFile (folder.join ⟨Manifest.fileName⟩) with
  | none =>
    rw [hfound, Option.map_none] at hplaces
    rw [hplaces]
    exact and_iff_right rfl
  | some folder =>
    rw [hfound, Option.map_some] at hplaces
    rw [hplaces]
    have hholds : holdsManifest fs (fs.placeOf folder) = true := List.find?_some hplaces
    have hleads := (h.passes (List.mem_of_find?_eq_some hfound)).1.leadsTo_join isName_manifest
      hholds
    constructor
    · rintro ⟨nearest, hnearest, hleads'⟩
      have hsame := FileSystem.Walked.arrived.inj (Except.ok.inj (hleads.symm.trans hleads'))
      rw [List.append_cancel_right hsame]
      exact hnearest.around
    · intro haround
      refine ⟨fs.placeOf folder, ⟨haround, hholds, fun other hother => ?_⟩, hleads⟩
      exact FileSystem.isPrefix_of_find? (StartsAt.isChain_places fs start) h.head?_places hplaces
        hother

/-- Without `..` the search goes wrong only where it ends: at the working directory, when there is a
manifest further out and none in between. -/
theorem findsNearest_iff_of_down (h : StartsAt fs start place) (hdown : ".." ∉ start.pieces) :
    FindsNearest fs start place ↔ start.isAbsolute = true ∨
      (∃ folder, fs.workingDirectory <+: folder ∧ folder <+: place ∧
        holdsManifest fs folder = true) ∨
      ∀ folder, folder <+: fs.workingDirectory → holdsManifest fs folder = false := by
  have hplace := (h.leads.passes h.folder).2
  have hbetween (folder) (hfolder : folder ∈ start.selfAndParents.map fs.placeOf) :
      FileSystem.startOf fs.workingDirectory start <+: folder ∧ folder <+: place := by
    obtain ⟨p, hp, rfl⟩ := List.mem_map.1 hfolder
    rw [← hplace]
    exact FileSystem.isPrefix_placeOf hp hdown
  have hstart := FileSystem.startOf_mem_places fs start
  rw [findsNearest_iff h]
  cases hfound : (start.selfAndParents.map fs.placeOf).find? (holdsManifest fs) with
  | some folder =>
    obtain ⟨hlow, hhigh⟩ := hbetween folder (List.mem_of_find?_eq_some hfound)
    refine iff_of_true hhigh ?_
    by_cases habsolute : start.isAbsolute = true
    · exact .inl habsolute
    · rw [FileSystem.startOf, if_neg habsolute] at hlow
      exact .inr (.inl ⟨folder, hlow, hhigh, List.find?_some hfound⟩)
  | none =>
    have hmissed := List.find?_eq_none.1 hfound
    by_cases habsolute : start.isAbsolute = true
    · exact iff_of_true (fun folder => h.eq_false_of_missed habsolute hmissed) (.inl habsolute)
    · have hcwd : FileSystem.startOf fs.workingDirectory start = fs.workingDirectory :=
        if_neg habsolute
      have houtside := @StartsAt.outside_of_missed _ _ _ h hmissed
      rw [hcwd] at houtside hstart
      constructor
      · exact fun hall => .inr (.inr fun folder hfolder =>
          hall folder (hfolder.trans (hbetween _ hstart).2))
      · rintro (habsolute' | ⟨folder, hlow, hhigh, hholds⟩ | hall)
        · exact absurd habsolute' habsolute
        · obtain ⟨hstarts, hne⟩ := houtside hhigh hholds
          exact absurd (hstarts.eq_of_length_le hlow.length_le) hne
        · intro folder hfolder
          rw [Bool.eq_false_iff]
          intro hholds
          exact Bool.false_ne_true ((hall folder (houtside hfolder hholds).1).symm.trans hholds)

/-- **The manifest that is loaded.** A workspace is loaded from the first manifest in the folder or
in one that the text of its path names around it, and if there is none, the error names the file
that is missing in the folder. For a folder that its path leads to without a link, this is right,
the nearest manifest or none, just when the first place with a manifest that the path comes to on
its way outwards is the folder or one around it, or when no such place has one and no folder around
has one either. Where the path goes down only, it is right from every absolute path, and from a
relative one unless only folders outside the working directory have a manifest. -/
theorem loadAround_exact (fs : FileSystem) (start : Path) :
    (∀ env given, loadAround fs env given start =
      match start.selfAndParents.find? fun folder =>
          fs.isFile (folder.join ⟨Manifest.fileName⟩) with
      | some folder => load fs env given (folder.join ⟨Manifest.fileName⟩)
      | none => .error (.notFound (start.join ⟨Manifest.fileName⟩))) ∧
    ∀ place, StartsAt fs start place →
      (FindsNearest fs start place ↔
        match (start.selfAndParents.map fs.placeOf).find? (holdsManifest fs) with
        | some folder => folder <+: place
        | none => ∀ folder, folder <+: place → holdsManifest fs folder = false) ∧
      (".." ∉ start.pieces → (FindsNearest fs start place ↔ start.isAbsolute = true ∨
        (∃ folder, fs.workingDirectory <+: folder ∧ folder <+: place ∧
          holdsManifest fs folder = true) ∨
        ∀ folder, folder <+: fs.workingDirectory → holdsManifest fs folder = false)) := by
  refine ⟨fun env given => ?_, fun place h => ⟨findsNearest_iff h, findsNearest_iff_of_down h⟩⟩
  unfold loadAround
  rw [findManifest_eq]
  cases start.selfAndParents.find? _ <;> rfl

def innerFolder : FileSystem where
  workingDirectory := ["work", "src"]
  entries := [(["work"], .directory), (["work", "src"], .directory),
    (["work", "stepgen.toml"], .file [])]

theorem loadAround_exact_absolute :
    StartsAt innerFolder ⟨"/work/src"⟩ ["work", "src"] ∧
      FindsNearest innerFolder ⟨"/work/src"⟩ ["work", "src"] := by
  have hstart : StartsAt innerFolder ⟨"/work/src"⟩ ["work", "src"] := by decide +kernel
  exact ⟨hstart, (((loadAround_exact innerFolder ⟨"/work/src"⟩).2 _ hstart).2 (by decide)).2
    (.inl (by decide))⟩

def folderBelow : FileSystem where
  workingDirectory := []
  entries := [(["app"], .directory), (["app", "stepgen.toml"],
    .file "[solution]\nname = \"sample\"\n[[project]]\nname = \"app\"".toUTF8.data.toList)]

/-- The manifest around the working directory is not found from `.`, and from `app/..` the one in a
folder below is loaded, where none is in or around the folder. -/
theorem loadAround_not_nearest :
    (StartsAt innerFolder ⟨"."⟩ ["work", "src"] ∧ IsNearest innerFolder ["work", "src"] ["work"] ∧
      loadAround innerFolder ⟨[]⟩ none ⟨"."⟩ = .error (.notFound ⟨"./stepgen.toml"⟩)) ∧
    StartsAt folderBelow ⟨"app/.."⟩ [] ∧
      (∀ folder, folder <+: [] → holdsManifest folderBelow folder = false) ∧
      (loadAround folderBelow ⟨[]⟩ none ⟨"app/.."⟩).toOption.map Workspace.root = some ⟨"app"⟩ := by
  refine ⟨by decide +kernel, by decide +kernel, fun folder hfolder => ?_, by decide +kernel⟩
  rw [List.prefix_nil.1 hfolder]
  decide +kernel

end BuildSteps.Workspace
