import BuildSteps.Proofs.Scan
import BuildSteps.Proofs.Tool.Repetition

/-!
# Generating again

The second generation starts from the files that the first one has left. Everything that the first
one has looked at on the way is there at the start of the second and does not change any more.
-/

namespace BuildSteps

open FileSystem

/-- Whether a tool chooses programs that are shown alike while files grow from `fs` to `last`. -/
def SchemaTool.Steady (f : Path → Path) (fs last : FileSystem) (tool : SchemaTool) : Prop :=
  ∀ between, fs.Grows between → between.Grows last →
    f (tool.executable between) = f (tool.executable fs)

namespace Solution

/-! ## 1. Tools one after the other -/

variable {f : Path → Path} {fs last before before' made : FileSystem}
  {project project' after : Project}

theorem grows_collectTools_cons (fs : FileSystem) (project : Project) (tool : Tool)
    (tools : List Tool) :
    (tool.collect fs project).files.Grows (collectTools fs project (tool :: tools)).2.2 := by
  rw [collectTools]
  split
  · next hcollect =>
    rw [hcollect]
    exact .refl _
  · next table between made hcollect =>
    rw [hcollect]
    have htools := (extends_collectTools made between tools).grows
    split
    · next hrest => rwa [hrest] at htools
    · next hrest => rwa [hrest] at htools

theorem grows_collectMembers_cons (fs : FileSystem) (m : Member) (members : List Member) :
    (collectTools fs m.project m.tools).2.2.Grows (collectMembers fs (m :: members)).2.2 := by
  rw [collectMembers]
  split
  · next htools =>
    rw [htools]
    exact .refl _
  · next tables project made htools =>
    rw [htools]
    have hmembers := (extends_collectMembers made members).grows
    split
    · next hrest => rwa [hrest] at hmembers
    · next hrest => rwa [hrest] at hmembers

theorem files_collectMembers_cons {m : Member} {tables : List StepTable}
    (h : collectTools before m.project m.tools = (.ok tables, after, made)) (members : List Member) :
    (collectMembers before (m :: members)).2.2 = (collectMembers made members).2.2 := by
  rw [collectMembers, h]
  simp only
  split
  · next hmembers => rw [hmembers]
  · next hmembers => rw [hmembers]

theorem collectTools_schema_again (halike : project.Alike f project') {schema : Option SchemaTool}
    (steady : ∀ tool, schema = some tool → tool.Steady f fs last) {tables : List StepTable}
    (h : collectTools before project (schema.map Tool.schema).toList = (.ok tables, after, made))
    (hbefore : fs.Grows before) (hmade : made.Grows before') (hlast : before'.Grows last) :
    ∃ after' made', collectTools before' project' (schema.map Tool.schema).toList =
        (.ok tables, after', made') ∧ after.Alike f after' := by
  cases schema with
  | none =>
    obtain ⟨htables, hrest⟩ := Prod.mk.inj h
    obtain rfl := Except.ok.inj htables
    obtain rfl := (Prod.mk.inj hrest).1
    exact ⟨project', before', rfl, halike⟩
  | some tool =>
    obtain ⟨table, rest, hresult, hrest, rfl⟩ := collectTools_cons_ok_iff.1 h
    obtain ⟨htables, hothers⟩ := Prod.mk.inj hrest
    obtain rfl := Except.ok.inj htables
    obtain ⟨rfl, rfl⟩ := Prod.mk.inj hothers
    have hgrows := ((Tool.schema tool).extends_collect before project).grows.trans hmade
    -- both times the program is chosen while files grow from the start to the end
    have hprogram : f (tool.executable before') = f (tool.executable before) := by
      rw [steady tool rfl before' (hbefore.trans hgrows) hlast,
        steady tool rfl before hbefore (hgrows.trans hlast)]
    obtain ⟨hresult', halike'⟩ :=
      SchemaTool.collect_again halike hresult hmade hgrows.workingDirectory hprogram
    exact ⟨_, _, collectTools_cons_ok_iff.2 ⟨table, [], hresult', rfl, rfl⟩, halike'⟩

theorem collectTools_again (halike : project.Alike f project') {s : Setup}
    (scan : ∀ tool, s.qt = some tool → "inl" ∉ tool.scanExtensions)
    (steady : ∀ tool, s.schema = some tool → tool.Steady f fs last)
    (read : ∀ file ∈ project.lasting, before'.read file = before.read file)
    {tables : List StepTable} (h : collectTools before project s.tools = (.ok tables, after, made))
    (hbefore : fs.Grows before) (hmade : made.Grows before')
    (hlast : (collectTools before' project' s.tools).2.2.Grows last) :
    ∃ after' made', collectTools before' project' s.tools = (.ok tables, after', made') ∧
      after.Alike f after' := by
  rw [Setup.tools] at h hlast ⊢
  cases hqt : s.qt with
  | none =>
    rw [hqt] at h hlast
    have hgrows := (extends_collectTools before' project' (s.schema.map Tool.schema).toList).grows
    exact collectTools_schema_again halike steady h hbefore hmade (hgrows.trans hlast)
  | some tool =>
    rw [hqt] at h hlast
    obtain ⟨table, rest, hresult, hrest, rfl⟩ := collectTools_cons_ok_iff.1 h
    obtain ⟨hsame, halike'⟩ := QtTool.collect_again halike (scan tool hqt) read
    have hfirst := ((Tool.qt tool).extends_collect before project).grows
    have hsecond := ((Tool.qt tool).extends_collect before' project').grows
    have hend := (grows_collectTools_cons before' project' (.qt tool) _).trans hlast
    obtain ⟨after', made', hrest', hafter⟩ := collectTools_schema_again halike' steady hrest
      (hbefore.trans hfirst) (hmade.trans hsecond) hend
    exact ⟨after', made', collectTools_cons_ok_iff.2 ⟨table, rest, hsame.trans hresult, hrest', rfl⟩,
      hafter⟩

/-! ## 2. Members -/

def Member.Stable (f : Path → Path) (fs last : FileSystem) (m : Member) : Prop :=
  ∃ s : Setup, m.tools = s.tools ∧
    (∀ tool, s.qt = some tool → "inl" ∉ tool.scanExtensions) ∧
    ∀ tool, s.schema = some tool → tool.Steady f fs last

/-- What two members have in common whose projects were found in `fs` and after a generation. -/
structure Repeats (f : Path → Path) (fs last : FileSystem) (m m' : Member) : Prop where
  alike : m.project.Alike f m'.project
  tools : m'.tools = m.tools
  stable : m.Stable f fs last
  read : ∀ between, fs.Grows between → ∀ file ∈ m.project.lasting,
    between.read file = fs.read file

/-- The tools of all members make their steps again. The induction is on the members; the second
time they meet files that have grown since the first. -/
theorem collectMembers_again {members members' collected : List Member}
    (hmembers : List.Forall₂ (Repeats f fs last) members members') {tables : List (List StepTable)}
    (h : collectMembers before members = (.ok tables, collected, made))
    (hbefore : fs.Grows before) (hmade : made.Grows before')
    (hlast : (collectMembers before' members').2.2.Grows last) :
    ∃ collected' made', collectMembers before' members' = (.ok tables, collected', made') ∧
      collected'.map (·.outline f) = collected.map (·.outline f) := by
  induction hmembers generalizing before before' tables collected with
  | nil =>
    obtain ⟨htables, hrest⟩ := Prod.mk.inj h
    obtain rfl := Except.ok.inj htables
    obtain rfl := (Prod.mk.inj hrest).1
    exact ⟨[], before', rfl, rfl⟩
  | @cons m m' members members' hfirst _ ih =>
    obtain ⟨halike, hsame, ⟨s, htools, scan, steady⟩, read⟩ := hfirst
    have htools' := hsame.trans htools
    obtain ⟨first, project, between, others, others', htool, hrest, rfl, rfl⟩ :=
      collectMembers_cons_ok_iff.1 h
    have hbetween : before.Grows between := by
      have hgrows := (extends_collectTools before m.project m.tools).grows
      rwa [htool] at hgrows
    have hbetween' : between.Grows made := by
      have hgrows := (extends_collectMembers between members).grows
      rwa [hrest] at hgrows
    have hsecond := (hbetween.trans hbetween').trans hmade
    have hread : ∀ file ∈ m.project.lasting, before'.read file = before.read file := fun file hfile => by
      rw [read before' (hbefore.trans hsecond) file hfile, read before hbefore file hfile]
    rw [htools] at htool
    have htoolEnd : (collectTools before' m'.project s.tools).2.2.Grows last := by
      refine .trans ?_ hlast
      rw [← htools']
      exact grows_collectMembers_cons before' m' members'
    obtain ⟨project', between'', htool', hproject⟩ := collectTools_again halike scan steady hread
      htool hbefore (hbetween'.trans hmade) htoolEnd
    rw [← htools'] at htool'
    have hgrows' : before'.Grows between'' := by
      have hgrows := (extends_collectTools before' m'.project m'.tools).grows
      rwa [htool'] at hgrows
    rw [files_collectMembers_cons htool'] at hlast
    obtain ⟨others'', made', hrest', hothers⟩ := ih hrest (hbefore.trans hbetween)
      (hmade.trans hgrows') hlast
    refine ⟨_, made', collectMembers_cons_ok_iff.2
      ⟨first, project', between'', others, others'', htool', hrest', rfl, rfl⟩, ?_⟩
    rw [List.map_cons, List.map_cons, hothers, Member.outline, Member.outline, htools, htools',
      hproject.outline]

/-! ## 3. Generations -/

@[simp] theorem files_finalize (s : Solution) (o : Gathered) : (s.finalize o).files = o.files := by
  rw [finalize]
  split
  · rfl
  · split <;> rfl

/-- A generation leaves the files that its tools have left. -/
theorem files_generate {s : Solution} {discovered : List Member}
    (h : discoverMembers fs s.members = (.ok (), discovered)) :
    (s.generate fs).files = (collectMembers fs discovered).2.2 := by
  rw [generate, collect, h]
  simp only
  generalize collectMembers fs discovered = collected
  obtain ⟨result, members, made⟩ := collected
  cases result with
  | error e => rfl
  | ok tables => exact files_finalize s _

theorem extends_generate (s : Solution) (fs : FileSystem) :
    Extends Path.IsInlineName fs (s.generate fs).files := by
  cases hdiscover : discoverMembers fs s.members with
  | mk result discovered =>
    cases result with
    | error e =>
      rw [generate, collect, hdiscover]
      exact .refl fs
    | ok _ =>
      rw [files_generate hdiscover]
      exact extends_collectMembers fs discovered

theorem discoverMembers_again {later : FileSystem} (tree : fs.IsTree)
    (h : Extends Path.IsInlineName fs later) {members discovered : List Member}
    (fresh : ∀ m ∈ members, m.project.sourceFiles = [] ∧ m.project.discovered = false)
    (stable : ∀ m ∈ members, m.Stable f fs last)
    (hfound : List.Forall₂ (fun m m' => m'.tools = m.tools ∧
      m.project.discover fs = .ok m'.project) members discovered) :
    ∃ discovered', discoverMembers later members = (.ok (), discovered') ∧
      List.Forall₂ (Repeats f fs last) discovered discovered' := by
  induction hfound with
  | nil => exact ⟨[], rfl, .nil⟩
  | @cons m m' members discovered hfirst _ ih =>
    obtain ⟨⟨hempty, hundiscovered⟩, hfresh⟩ := List.forall_mem_cons.1 fresh
    obtain ⟨⟨s, htools, hscan, hsteady⟩, hstable⟩ := List.forall_mem_cons.1 stable
    obtain ⟨htools', hdiscover⟩ := hfirst
    obtain ⟨discovered', hrest, hrepeats⟩ := ih hfresh hstable
    obtain ⟨found, hfound, hsame, hlasting⟩ := Project.discover_again h hdiscover
    refine ⟨{ m with project := found } :: discovered', ?_, .cons ⟨⟨?_, hlasting⟩, htools'.symm, ?_, ?_⟩ hrepeats⟩
    · rw [discoverMembers, if_neg (by rw [hundiscovered]; exact Bool.false_ne_true), hfound, hrest]
    · rw [hsame]
      rfl
    · exact ⟨s, htools'.trans htools, hscan, hsteady⟩
    · intro between hgrows file hfile
      exact Project.read_of_discover tree hempty hdiscover hgrows (List.mem_of_mem_filter hfile)

/-- A generation that succeeds does so again on the files that it has left, and makes what `f` shows
alike. -/
theorem generate_again {s : Solution} (tree : fs.IsTree)
    (fresh : ∀ m ∈ s.members, m.project.sourceFiles = [] ∧ m.project.discovered = false)
    (stable : ∀ m ∈ s.members, m.Stable f fs (s.generate (s.generate fs).files).files)
    {stats : GenerationStats} (h : (s.generate fs).result = .ok stats) :
    (∃ stats', (s.generate (s.generate fs).files).result = .ok stats') ∧
      (s.generate (s.generate fs).files).solution.members.map (·.outline f) =
        (s.generate fs).solution.members.map (·.outline f) := by
  obtain ⟨o, projects, hcollect, hresolve, hmembers⟩ := generate_phases h
  obtain ⟨hdiscover, htools⟩ := collect_phases hcollect
  have hfound := forall₂_discover (fun m hm => (fresh m hm).2) hdiscover
  have hfiles : (s.generate fs).files = o.files := by rw [files_generate hdiscover, htools]
  have hextends := s.extends_generate fs
  rw [hfiles] at stable hextends ⊢
  obtain ⟨discovered', hdiscover', hrepeats⟩ := discoverMembers_again tree hextends fresh stable hfound
  rw [files_generate hdiscover'] at hrepeats
  obtain ⟨collected', made', htools', houtlines⟩ := collectMembers_again hrepeats htools (.refl fs)
    (.refl o.files) (.refl _)
  have hgenerate : s.generate o.files =
      s.finalize ⟨discovered', collected', o.tables, made'⟩ := by
    rw [generate, collect, hdiscover']
    simp only [htools']
  rw [hgenerate]
  exact finalize_congr s o ⟨discovered', collected', o.tables, made'⟩ houtlines rfl hresolve hmembers

end Solution

end BuildSteps
