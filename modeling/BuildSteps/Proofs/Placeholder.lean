import BuildSteps.Proofs.FileSystem.Creation
import BuildSteps.Proofs.Path.Outwards
import BuildSteps.Tool.Qt

/-!
# Placeholders, one request after the other

Looking for a placeholder, creating the folders around it and creating the file are separate steps,
and the placeholders of different sources may have the same path, or one may be wanted below
another. Whoever comes first still wins: a run of requests leaves alone what is there, and each file
that is new is the work of one request.
-/

namespace BuildSteps

namespace FileSystem

/-! ## 1. Paths to what is new -/

/-- Whether `fs'` holds all that `fs` holds, and whatever is new is led to by a path that is allowed
to lead to it. -/
structure Adds (allowed : Path → Node → Prop) (fs fs' : FileSystem) : Prop where
  grows : fs.Grows fs'
  leads : ∀ {place : Place} {node : Node}, fs.node? place = none → fs'.node? place = some node →
    ∃ p, allowed p node ∧ fs'.find p = .ok place

namespace Adds

variable {allowed allowed' : Path → Node → Prop} {fs fs' fs'' : FileSystem}

theorem refl (fs : FileSystem) : Adds allowed fs fs where
  grows := .refl fs
  leads hnone hsome := by
    rw [hnone] at hsome
    cases hsome

theorem trans (h : Adds allowed fs fs') (h' : Adds allowed fs' fs'') : Adds allowed fs fs'' where
  grows := h.grows.trans h'.grows
  leads {place node} hnone hsome := by
    cases hbetween : fs'.node? place with
    | none => exact h'.leads hbetween hsome
    | some between =>
      obtain ⟨p, hp, hfind⟩ := h.leads hnone hbetween
      rw [h'.grows.node? hbetween] at hsome
      exact ⟨p, Option.some.inj hsome ▸ hp, h'.grows.find hfind⟩

theorem mono (h : Adds allowed fs fs') (himp : ∀ p node, allowed p node → allowed' p node) :
    Adds allowed' fs fs' where
  grows := h.grows
  leads hnone hsome := by
    obtain ⟨p, hp, hfind⟩ := h.leads hnone hsome
    exact ⟨p, himp p _ hp, hfind⟩

theorem insert {place : Place} {node : Node} {p : Path}
    (hfind : (fs.insert place node).find p = .ok place) (hp : allowed p node) :
    Adds allowed fs (fs.insert place node) where
  grows := fs.grows_insert place node
  leads hnone hsome := by
    rw [node?_insert hnone] at hsome
    split at hsome
    · next hplace =>
      obtain rfl := Option.some.inj hsome
      exact ⟨p, hp, hplace ▸ hfind⟩
    · cases hsome

end Adds

def IsFolderOf (folders : List Path) (p : Path) (node : Node) : Prop :=
  node = .directory ∧ p ∈ folders

theorem adds_makeDirectory {fs made : FileSystem} {p : Path} {folders : List Path}
    (h : fs.makeDirectory p = .ok made) (hp : p ∈ folders) : Adds (IsFolderOf folders) fs made := by
  obtain ⟨place, rfl, -, hfind⟩ := find_of_makeDirectory h
  exact .insert hfind ⟨rfl, hp⟩

/-- Creating a folder with those around it creates folders that the text of the path names. -/
theorem adds_makeDirectoriesWithin (depth : Nat) (fs : FileSystem) (p : Path) :
    Adds (IsFolderOf p.selfAndParents) fs (makeDirectoriesWithin depth fs p).2 := by
  induction depth generalizing fs p with
  | zero => exact .refl fs
  | succ depth ih =>
    rw [makeDirectoriesWithin]
    split
    · exact .refl fs
    · split
      · next made hmade => exact adds_makeDirectory hmade p.self_mem_selfAndParents
      · split
        · exact .refl fs
        · next parent hparent =>
          have hadds : Adds (IsFolderOf p.selfAndParents) fs
              (makeDirectoriesWithin depth fs parent).2 := by
            rw [Path.selfAndParents_of_some hparent]
            exact (ih fs parent).mono fun folder node h => ⟨h.1, List.mem_cons_of_mem p h.2⟩
          split
          · next made hmade => rwa [hmade] at hadds
          · next made hmade =>
            rw [hmade] at hadds
            split
            · next done hdone =>
              exact hadds.trans (adds_makeDirectory hdone p.self_mem_selfAndParents)
            · exact hadds
      · exact .refl fs

end FileSystem

namespace Placeholder

open FileSystem

/-! ## 2. One request -/

/-- What is left of a file system once the folders around a placeholder are wanted: the same, or the
one in which they were created as far as possible. -/
inductive WithFolders (fs : FileSystem) (intermediate : Path) : FileSystem → Prop
  | unwanted : WithFolders fs intermediate fs
  | wanted {parent : Path} (h : intermediate.parent? = some parent) :
    WithFolders fs intermediate (fs.makeDirectories parent).2

inductive Ensured (fs : FileSystem) (source intermediate : Path) : Outcome × FileSystem → Prop
  | existing (there : fs.pathExists intermediate = true) :
    Ensured fs source intermediate (.existing, fs)
  | created {between made : FileSystem} (missing : fs.pathExists intermediate = false)
    (folders : WithFolders fs intermediate between)
    (written : between.writeNew intermediate (content source) = .ok made) :
    Ensured fs source intermediate (.created, made)
  | abandoned {outcome : Outcome} {between : FileSystem}
    (missing : fs.pathExists intermediate = false)
    (folders : WithFolders fs intermediate between)
    (h : outcome = .contended ∨ outcome = .failed) :
    Ensured fs source intermediate (outcome, between)

theorem ensured (fs : FileSystem) (source intermediate : Path) :
    Ensured fs source intermediate (ensure fs source intermediate) := by
  rw [ensure]
  split
  · next there => exact .existing there
  · next hmissing =>
    have missing := Bool.eq_false_iff.2 hmissing
    split
    next made between hmade =>
      have folders : WithFolders fs intermediate between := by
        split at hmade
        · exact (Prod.mk.inj hmade).2 ▸ .unwanted
        · next parent hparent =>
          split at hmade
          · exact (Prod.mk.inj hmade).2 ▸ .unwanted
          · have hfolders : WithFolders fs intermediate (fs.makeDirectories parent).2 :=
              .wanted hparent
            rwa [hmade] at hfolders
      split
      · exact .abandoned missing folders (.inr rfl)
      · split
        · next written => exact .created missing folders written
        · exact .abandoned missing folders (.inl rfl)
        · exact .abandoned missing folders (.inr rfl)

theorem WithFolders.adds {fs between : FileSystem} {intermediate : Path}
    (h : WithFolders fs intermediate between) :
    Adds (IsFolderOf intermediate.selfAndParents.tail) fs between := by
  cases h with
  | unwanted => exact .refl fs
  | wanted hparent =>
    rw [Path.selfAndParents_of_some hparent]
    exact adds_makeDirectoriesWithin _ fs _

/-- A request for a placeholder, with the file system that it found, its outcome and the file system
that it left. -/
structure Call where
  source : Path
  intermediate : Path
  before : FileSystem
  outcome : Outcome
  after : FileSystem

def call (fs : FileSystem) (request : Path × Path) : Call :=
  let (outcome, after) := ensure fs request.1 request.2
  ⟨request.1, request.2, fs, outcome, after⟩

namespace Call

def folders (c : Call) : List Path := c.intermediate.selfAndParents.tail

/-- Whether a path may lead to something that is new after a call: the placeholder to its file, if
the call says that it has created it, and the paths around it to folders. -/
def Allows (c : Call) (p : Path) (node : Node) : Prop :=
  IsFolderOf c.folders p node ∨
    c.outcome = .created ∧ p = c.intermediate ∧ node = .file (content c.source)

structure Creates (c : Call) (place : Place) : Prop where
  outcome : c.outcome = .created
  free : c.before.node? place = none
  written : c.after.node? place = some (.file (content c.source))
  leads : c.after.find c.intermediate = .ok place

/-- What a call does to the file system, by its outcome. -/
structure Sound (c : Call) : Prop where
  adds : Adds c.Allows c.before c.after
  creates : c.outcome = .created → ∃ place, c.Creates place
  existing : c.outcome = .existing ↔ c.before.pathExists c.intermediate = true
  unchanged : c.outcome = .existing → c.after = c.before

end Call

theorem sound_call (fs : FileSystem) (request : Path × Path) : (call fs request).Sound := by
  obtain ⟨source, intermediate⟩ := request
  have hensured := ensured fs source intermediate
  rw [call]
  generalize ensure fs source intermediate = answer at hensured ⊢
  cases hensured with
  | existing there =>
    exact ⟨.refl fs, Outcome.noConfusion, iff_of_true rfl there, fun _ => rfl⟩
  | @abandoned outcome between missing folders h =>
    have hnew : ¬ fs.pathExists intermediate = true := Bool.eq_false_iff.1 missing
    have hother : outcome ≠ .created ∧ outcome ≠ .existing := by
      rcases h with rfl | rfl <;> exact ⟨Outcome.noConfusion, Outcome.noConfusion⟩
    exact ⟨folders.adds.mono fun _ _ => .inl, fun hcreated => absurd hcreated hother.1,
      iff_of_false hother.2 hnew, fun hexisting => absurd hexisting hother.2⟩
  | @created between made missing folders written =>
    have hnew : ¬ fs.pathExists intermediate = true := Bool.eq_false_iff.1 missing
    obtain ⟨place, rfl, free, hfind⟩ := find_of_writeNew written
    refine ⟨?_, fun _ => ⟨place, rfl, ?_, ?_, hfind⟩, iff_of_false Outcome.noConfusion hnew,
      Outcome.noConfusion⟩
    · exact (folders.adds.mono fun _ _ => .inl).trans (.insert hfind (.inr ⟨rfl, rfl, rfl⟩))
    · exact folders.adds.grows.node?_eq_none free
    · exact (node?_insert free _).trans (if_pos rfl)

/-- Only a call that says so creates a file. -/
theorem Call.Sound.isDirectory_of_new {c : Call} (h : c.Sound) (hnot : c.outcome ≠ .created)
    {place : Place} {node : Node} (hbefore : c.before.node? place = none)
    (hafter : c.after.node? place = some node) : node = .directory := by
  obtain ⟨p, hallowed, -⟩ := h.adds.leads hbefore hafter
  rcases hallowed with ⟨hfolder, -⟩ | ⟨hcreated, -⟩
  · exact hfolder
  · exact absurd hcreated hnot

/-- A call for what a path leads to finds it. -/
theorem Call.Sound.existing_of_find {c : Call} (h : c.Sound) {place : Place} {node : Node}
    (hfind : c.before.find c.intermediate = .ok place)
    (hnode : c.before.node? place = some node) : c.outcome = .existing ∧ c.after = c.before := by
  have hexisting : c.outcome = .existing := by
    rw [h.existing, pathExists, lookup?, hfind]
    simp only [hnode]
    rfl
  exact ⟨hexisting, h.unchanged hexisting⟩

/-! ## 3. A run of requests -/

def calls (fs : FileSystem) : List (Path × Path) → List Call
  | [] => []
  | request :: requests => call fs request :: calls (call fs request).after requests

variable {fs : FileSystem} {requests : List (Path × Path)}

theorem adds_ensureAll (fs : FileSystem) (requests : List (Path × Path)) :
    Adds (fun p node => ∃ c ∈ calls fs requests, c.Allows p node) fs
      (QtTool.ensureAll fs requests) := by
  induction requests generalizing fs with
  | nil => exact .refl fs
  | cons request requests ih =>
    have hfirst := (sound_call fs request).adds.mono fun p node hallowed =>
      show ∃ c ∈ calls fs (request :: requests), c.Allows p node from
        ⟨_, List.mem_cons_self, hallowed⟩
    refine hfirst.trans ((ih (call fs request).after).mono fun p node ⟨c, hc, hallowed⟩ => ?_)
    exact ⟨c, List.mem_cons_of_mem _ hc, hallowed⟩

structure Within (fs : FileSystem) (requests : List (Path × Path)) (c : Call) : Prop where
  sound : c.Sound
  requested : (c.source, c.intermediate) ∈ requests
  before : fs.Grows c.before
  after : c.after.Grows (QtTool.ensureAll fs requests)

theorem within_of_mem {c : Call} (h : c ∈ calls fs requests) : Within fs requests c := by
  induction requests generalizing fs with
  | nil => cases h
  | cons request requests ih =>
    rcases List.mem_cons.1 h with rfl | h
    · exact ⟨sound_call fs request, List.mem_cons_self, .refl fs, (adds_ensureAll _ requests).grows⟩
    · obtain ⟨sound, requested, before, after⟩ := ih h
      exact ⟨sound, List.mem_cons_of_mem _ requested,
        (sound_call fs request).adds.grows.trans before, after⟩

theorem pairwise_calls (fs : FileSystem) (requests : List (Path × Path)) :
    (calls fs requests).Pairwise fun c later => c.after.Grows later.before := by
  induction requests generalizing fs with
  | nil => exact .nil
  | cons request requests ih =>
    exact .cons (fun later hlater => (within_of_mem hlater).before) (ih _)

/-- A call that has created a file, and a later one, have not created the same. -/
theorem Call.Creates.place_ne {c later : Call} {place place' : Place} (h : c.Creates place)
    (h' : later.Creates place') (hgrows : c.after.Grows later.before) : place' ≠ place := by
  rintro rfl
  have hfree := hgrows.node?_eq_none h'.free
  rw [h.written] at hfree
  cases hfree

theorem Within.find {c : Call} {place : Place} (h : Within fs requests c) (hc : c.Creates place) :
    (QtTool.ensureAll fs requests).find c.intermediate = .ok place :=
  h.after.find hc.leads

/-- Whether one call of a run has written a file and no other has, and those that come later and
want it find it and do nothing. -/
structure WrittenOnce (fs : FileSystem) (requests : List (Path × Path)) (place : Place)
    (front : List Call) (c : Call) (rest : List Call) : Prop where
  run : calls fs requests = front ++ c :: rest
  creates : c.Creates place
  /-- No other call has created what its path leads to in the end, if that is the file. -/
  unique : ∀ other ∈ front ++ rest, other.outcome = .created →
    (QtTool.ensureAll fs requests).find other.intermediate ≠ .ok place
  /-- The path may be written in the same way or in another one, as long as it leads to the file. -/
  later : ∀ later ∈ rest, later.intermediate = c.intermediate ∨
      later.before.find later.intermediate = .ok place →
    later.outcome = .existing ∧ later.after = later.before

/-- A call that has created a file has written it once and for all. -/
theorem exists_writtenOnce {c : Call} {place : Place} (hmem : c ∈ calls fs requests)
    (hc : c.Creates place) : ∃ front rest, WrittenOnce fs requests place front c rest := by
  obtain ⟨front, rest, hrun⟩ := List.append_of_mem hmem
  have hpairwise := pairwise_calls fs requests
  rw [hrun, List.pairwise_append] at hpairwise
  obtain ⟨-, hrest, hfront⟩ := hpairwise
  have hrest : ∀ later ∈ rest, c.after.Grows later.before := (List.pairwise_cons.1 hrest).1
  have hwithin : ∀ other ∈ front ++ rest, Within fs requests other := by
    intro other hother
    apply within_of_mem
    rw [hrun]
    exact (List.sublist_append_right [c] rest).append_left front |>.mem hother
  refine ⟨front, rest, hrun, hc, fun other hother hcreated hfind => ?_, fun later hlater hwants => ?_⟩
  · have hother' := hwithin other hother
    obtain ⟨place', hplace'⟩ := hother'.sound.creates hcreated
    have hsame : place' = place := Except.ok.inj ((hother'.find hplace').symm.trans hfind)
    rcases List.mem_append.1 hother with hbefore | hafter
    · exact hplace'.place_ne hc (hfront other hbefore c List.mem_cons_self) hsame.symm
    · exact hc.place_ne hplace' (hrest other hafter) hsame
  · have hsound := (hwithin later (List.mem_append_right front hlater)).sound
    have hgrows := hrest later hlater
    have hfind : later.before.find later.intermediate = .ok place := by
      rcases hwants with hsame | hfind
      · rw [hsame]
        exact hgrows.find hc.leads
      · exact hfind
    exact hsound.existing_of_find hfind (hgrows.node? hc.written)

/-- Whether everything that is new after a run of requests is accounted for. -/
structure Accounted (fs : FileSystem) (requests : List (Path × Path)) : Prop where
  /-- All that was there is there, as it was. -/
  kept : fs.Grows (QtTool.ensureAll fs requests)
  /-- A new file was written by one call, and holds the path of its source. -/
  files : ∀ place bytes, fs.node? place = none →
    (QtTool.ensureAll fs requests).node? place = some (.file bytes) →
      ∃ front c rest, WrittenOnce fs requests place front c rest ∧ bytes = content c.source
  /-- Each call that says so has written a new file. -/
  created : ∀ c ∈ calls fs requests, c.outcome = .created →
    ∃ place front rest, fs.node? place = none ∧ WrittenOnce fs requests place front c rest ∧
      (QtTool.ensureAll fs requests).node? place = some (.file (content c.source))
  /-- Whatever else is new is a folder that the text of some placeholder names. -/
  others : ∀ place node, fs.node? place = none →
    (QtTool.ensureAll fs requests).node? place = some node → node.isFile = false →
      node = .directory ∧ ∃ request ∈ requests, ∃ folder ∈ request.2.selfAndParents.tail,
        (QtTool.ensureAll fs requests).find folder = .ok place
  /-- A call says that the placeholder exists just when its path leads to something. -/
  existing : ∀ c ∈ calls fs requests,
    c.outcome = .existing ↔ c.before.pathExists c.intermediate = true
  /-- A call that does not say that it has created a file creates none. -/
  quiet : ∀ c ∈ calls fs requests, c.outcome ≠ .created → ∀ place node,
    c.before.node? place = none → c.after.node? place = some node → node = .directory

-- the second request is for the same placeholder, the third for one below it
example :
    let requests : List (Path × Path) := [(⟨"/a/view.cpp"⟩, ⟨"/moc/view.inl"⟩),
      (⟨"/b/view.cpp"⟩, ⟨"/moc/view.inl"⟩), (⟨"/b/edit.cpp"⟩, ⟨"/moc/view.inl/edit.inl"⟩)]
    let fs : FileSystem := ⟨[], []⟩
    (calls fs requests).map (·.outcome) = [.created, .existing, .failed] ∧
      (QtTool.ensureAll fs requests).entries = [(["moc"], .directory),
        (["moc", "view.inl"], .file (content ⟨"/a/view.cpp"⟩))] := by
  decide +kernel

end Placeholder

end BuildSteps
