import BuildSteps.Proofs.FileSystem.Retracing
import BuildSteps.Proofs.Solution.Repetition

/-!
# Generation can be repeated

A generation that has succeeded succeeds again on the files that it has left, and makes the same
steps. What it has created makes no steps of its own. A schema compiler that was not there before is
there afterwards only if its path goes up again behind a missing name or ends like a placeholder.
-/

namespace BuildSteps

/-! ## 1. Programs -/

/-- Whether a path leads to a file after a generation just when it did before: it starts in a folder,
and behind a name that is missing it neither goes up again nor ends like a placeholder. -/
structure FileSystem.Settles (fs : FileSystem) (p : Path) : Prop where
  start : fs.isDirectoryAt (startOf fs.workingDirectory p) = true
  behind : ∀ folder name rest, fs.follow true p = .ok (.missing folder name rest) →
    ".." ∉ rest ∧ ∀ last ∈ (name :: rest).getLast?, Text.endsWith last ".inl" = false

theorem FileSystem.Settles.isFile_eq {fs last : FileSystem} {p : Path} (h : fs.Settles p)
    (tree : fs.IsTree) (hlast : Extends Path.IsInlineName fs last) :
    last.isFile p = fs.isFile p :=
  hlast.isFile_eq tree h.start fun folder name rest hmissing =>
    ⟨(h.behind folder name rest hmissing).1, fun ending hending hinline => by
      have hno := (h.behind folder name rest hmissing).2 ending hending
      rw [hinline.ending] at hno
      cases hno⟩

theorem SchemaTool.steady_of_isFile {tool : SchemaTool} {fs last : FileSystem}
    (h : ∀ program ∈ [tool.releaseExecutable, tool.debugExecutable],
      last.isFile program = fs.isFile program) : tool.Steady id fs last := by
  intro between hstart hend
  have hsame (program : Path)
      (hmem : program ∈ [tool.releaseExecutable, tool.debugExecutable]) :
      between.isFile program = fs.isFile program :=
    Bool.eq_iff_iff.2
      ⟨fun hfile => (h program hmem).symm.trans (hend.isFile hfile), hstart.isFile⟩
  rw [executable, executable, hsame _ List.mem_cons_self,
    hsame _ (List.mem_cons_of_mem _ List.mem_cons_self)]

theorem SchemaTool.steady_hidden (tool : SchemaTool) (fs last : FileSystem) :
    tool.Steady (fun _ => ⟨""⟩) fs last :=
  fun _ _ _ => rfl

namespace Setup

variable {w : Workspace} {setups : List Setup} {fs last : FileSystem}

/-- The tools of a workspace that does not search placeholders for markers. -/
theorem stable_of_mem {f : Path → Path} (h : ofWorkspace w = .ok setups)
    (scan : ∀ p ∈ w.manifest.projects, ∀ qt, p.qt = some qt →
      "inl" ∉ Project.normalizeExtensions qt.scanExtensions)
    (steady : ∀ s ∈ setups, ∀ tool, s.schema = some tool → tool.Steady f fs last)
    (name : String) : ∀ m ∈ (solution name setups).members, m.Stable f fs last := by
  intro m hm
  obtain ⟨s, hs, rfl⟩ := List.mem_map.1 hm
  obtain ⟨p, hp, hsetup⟩ := (forall₂_ofProjects h).flip.exists_of_mem hs
  refine ⟨s, rfl, fun tool htool => ?_, steady s hs⟩
  obtain ⟨-, -, ⟨-, hnone⟩ | ⟨qt, binDir, hqt, hsome⟩⟩ := ofProject_cases hsetup
  · rw [hnone] at htool
    cases htool
  · obtain rfl := Option.some.inj (hsome.symm.trans htool)
    show "inl" ∉ if _ then QtTool.defaultScanExtensions else _
    split
    · decide
    · exact scan p hp qt hqt

/-- The programs of a schema tool are those that the workspace says. -/
theorem steady_of_settles (h : ofWorkspace w = .ok setups) (tree : fs.IsTree)
    (hlast : FileSystem.Extends Path.IsInlineName fs last)
    (settled : ∀ p ∈ w.manifest.projects, p.proto.isSome = true →
      fs.Settles (w.releaseProtoc p) ∧ fs.Settles (w.debugProtoc p)) :
    ∀ s ∈ setups, ∀ tool, s.schema = some tool → tool.Steady id fs last := by
  intro s hs tool htool
  obtain ⟨p, hp, hsetup⟩ := (forall₂_ofProjects h).flip.exists_of_mem hs
  rw [(ofProject_cases hsetup).2.1] at htool
  obtain ⟨proto, hproto, rfl⟩ := Option.map_eq_some_iff.1 htool
  obtain ⟨hrelease, hdebug⟩ := settled p hp (Option.isSome_of_eq_some hproto)
  refine SchemaTool.steady_of_isFile fun program hprogram => ?_
  rcases List.mem_pair.1 hprogram with rfl | rfl
  · exact hrelease.isFile_eq tree hlast
  · exact hdebug.isFile_eq tree hlast

/-! ## 2. Generating twice -/

theorem configurations_of_outline {project project' : Project}
    (h : project'.outline id = project.outline id) :
    project'.configurations = project.configurations := by
  have hconfs := congrArg Project.configurations h
  have hid : (Configuration.mapExecutables id ·) = id := by
    funext conf
    show { conf with steps := conf.steps.map id } = conf
    rw [List.map_id]
  simpa only [Project.outline, hid, List.map_id] using hconfs

/-- Members that are alike up to what they list as sources have the same steps and command lines. -/
theorem forall₂_of_outline {members members' : List Solution.Member}
    (h : members'.map (·.outline id) = members.map (·.outline id)) :
    List.Forall₂ (fun m m' => m'.project.name = m.project.name ∧
        m'.project.configurations = m.project.configurations ∧
        ∀ base, m'.project.configurations.map (·.steps.map (·.commandLine base)) =
          m.project.configurations.map (·.steps.map (·.commandLine base))) members members' := by
  rw [← List.forall₂_eq_eq_eq, List.forall₂_map_left_iff, List.forall₂_map_right_iff] at h
  refine h.flip.imp fun m m' houtline => ?_
  have hproject := congrArg Solution.Member.project houtline
  have hname := congrArg Project.name hproject
  have hconfs := configurations_of_outline hproject
  exact ⟨hname, hconfs, fun base => by rw [hconfs]⟩

/-- **Generation can be repeated.** Take a workspace that does not search files with the extension of
placeholders for markers, and a tree of files on which a generation succeeds. A generation on the
files that the first one has left succeeds too. If it was settled before the first one which schema
compilers there are, every project has the same configurations after both: the same steps in the same
order, and the same command lines whatever paths are shown relative to. -/
theorem generate_repeatable (setup : ofWorkspace w = .ok setups) (tree : fs.IsTree)
    (scan : ∀ p ∈ w.manifest.projects, ∀ qt, p.qt = some qt →
      "inl" ∉ Project.normalizeExtensions qt.scanExtensions)
    {name : String} {stats : GenerationStats}
    (result : ((solution name setups).generate fs).result = .ok stats) :
    let first := (solution name setups).generate fs
    let second := (solution name setups).generate first.files
    (∃ stats, second.result = .ok stats) ∧
      ((∀ p ∈ w.manifest.projects, p.proto.isSome = true →
          fs.Settles (w.releaseProtoc p) ∧ fs.Settles (w.debugProtoc p)) →
        List.Forall₂ (fun m m' => m'.project.name = m.project.name ∧
            m'.project.configurations = m.project.configurations ∧
            ∀ base, m'.project.configurations.map (·.steps.map (·.commandLine base)) =
              m.project.configurations.map (·.steps.map (·.commandLine base)))
          first.solution.members second.solution.members) := by
  intro first second
  have hfresh : ∀ m ∈ (solution name setups).members,
      m.project.sourceFiles = [] ∧ m.project.discovered = false := by
    intro m hm
    obtain ⟨s, hs, rfl⟩ := List.mem_map.1 hm
    obtain ⟨p, -, hsetup⟩ := (forall₂_ofProjects setup).flip.exists_of_mem hs
    show s.project.sourceFiles = [] ∧ s.project.discovered = false
    rw [(ofProject_cases hsetup).1]
    exact ⟨rfl, rfl⟩
  constructor
  -- where no program is shown, none can change
  · have hstable : ∀ m ∈ (solution name setups).members,
        m.Stable (fun _ => ⟨""⟩) fs second.files :=
      stable_of_mem setup scan (fun _ _ tool _ => tool.steady_hidden fs _) name
    exact (Solution.generate_again tree hfresh hstable result).1
  · intro settled
    have hlast : FileSystem.Extends Path.IsInlineName fs second.files :=
      ((solution name setups).extends_generate fs).trans
        ((solution name setups).extends_generate first.files)
    have hstable := stable_of_mem setup scan (steady_of_settles setup tree hlast settled) name
    exact forall₂_of_outline (Solution.generate_again tree hfresh hstable result).2

def schemaManifest : String :=
  Text.join "\n" [
    "[solution]", "name = \"sample\"", "optimizations = [\"debug\"]",
    "[[project]]", "name = \"app\"",
    "[project.proto]", "source_folder = \".\"", "destination_folder = \"gen\"",
    "release_executable = \"app/gen/../../bin/protoc\"", "debug_executable = \"bin/protoc_d\""]

def schemaFiles : FileSystem where
  workingDirectory := ["work"]
  entries := [
    (["work"], .directory),
    (["work", "stepgen.toml"], .file schemaManifest.toUTF8.data.toList),
    (["work", "app"], .directory), (["work", "app", "message.proto"], .file []),
    (["work", "app", "widget.cpp"], .file [0x51, 0x5F, 0x4F, 0x42, 0x4A, 0x45, 0x43, 0x54]),
    (["work", "bin"], .directory), (["work", "bin", "protoc"], .file []),
    (["work", "bin", "protoc_d"], .file [])]

def schemaWorkspace (usesQt : Bool) (release debug : Option Path) : Workspace :=
  let w := workspaceFor [.win64]
  { w with
    root := ⟨"."⟩
    manifest := { w.manifest with
      projects := w.manifest.projects.map fun p =>
        { p with
          defines := []
          qt := p.qt.filter fun _ => usesQt
          proto := some {
            sourceFolder := "."
            destinationFolder := "gen"
            releaseExecutable := release
            debugExecutable := debug
            excludeRegex := []
            excludeFromCompileRegex := []
            additionalDefines := [] } } } }

def schemaSetups (usesQt : Bool) (release debug : Option Path) : List Setup :=
  (ofWorkspace (schemaWorkspace usesQt release debug)).toOption.getD []

def schemaStats (sourceFiles generatedFiles : Nat) (steps : List (StepKind × Nat)) :
    GenerationStats where
  projects := 1
  sourceFiles
  generatedFiles
  steps

/-- The placeholder is a generated file the first time and a source the second. A schema compiler
that is not there is not there afterwards. -/
theorem generate_repeatable_rediscovered :
    let w := schemaWorkspace true none none
    let s := solution "sample" (schemaSetups true none none)
    let first := s.generate schemaFiles
    let second := s.generate first.files
    schemaFiles.IsTree ∧
      (∀ p ∈ w.manifest.projects, ∀ qt, p.qt = some qt →
        "inl" ∉ Project.normalizeExtensions qt.scanExtensions) ∧
      (∀ p ∈ w.manifest.projects, p.proto.isSome = true →
        schemaFiles.Settles (w.releaseProtoc p) ∧ schemaFiles.Settles (w.debugProtoc p)) ∧
      first.result = .ok (schemaStats 2 3 [(.metaObjectCompile, 2), (.schemaCompile, 1)]) ∧
      (∃ stats, second.result = .ok stats) ∧
      List.Forall₂ (fun m m' => m'.project.name = m.project.name ∧
          m'.project.configurations = m.project.configurations ∧
          ∀ base, m'.project.configurations.map (·.steps.map (·.commandLine base)) =
            m.project.configurations.map (·.steps.map (·.commandLine base)))
        first.solution.members second.solution.members := by
  intro w s first second
  have tree : schemaFiles.IsTree := ⟨by decide, by decide, by decide⟩
  have setup : ofWorkspace w = .ok (schemaSetups true none none) := rfl
  have scan : ∀ p ∈ w.manifest.projects, ∀ qt, p.qt = some qt →
      "inl" ∉ Project.normalizeExtensions qt.scanExtensions := by
    intro p hp qt hqt
    obtain rfl := List.mem_singleton.1 hp
    obtain rfl := Option.some.inj hqt
    decide
  have compiler : schemaFiles.Settles ⟨"protoc"⟩ := by
    refine ⟨by decide, fun folder name rest hmissing => ?_⟩
    have hfollow : schemaFiles.follow true ⟨"protoc"⟩ = .ok (.missing ["work"] "protoc" []) := by
      decide +kernel
    rw [hfollow] at hmissing
    obtain ⟨-, rfl, rfl⟩ := FileSystem.Walked.missing.inj (Except.ok.inj hmissing)
    exact ⟨by decide, by decide⟩
  have settled : ∀ p ∈ w.manifest.projects, p.proto.isSome = true →
      schemaFiles.Settles (w.releaseProtoc p) ∧ schemaFiles.Settles (w.debugProtoc p) := by
    intro p hp _
    obtain rfl := List.mem_singleton.1 hp
    exact ⟨compiler, compiler⟩
  have result : first.result =
      .ok (schemaStats 2 3 [(.metaObjectCompile, 2), (.schemaCompile, 1)]) := by
    decide +kernel
  obtain ⟨hagain, hsame⟩ := generate_repeatable setup tree scan result
  exact ⟨tree, scan, settled, result, hagain, hsame settled⟩

def detourWorkspace : Workspace :=
  schemaWorkspace false (some ⟨"app/gen/../../bin/protoc"⟩) (some ⟨"bin/protoc_d"⟩)

def detourSetups : List Setup :=
  schemaSetups false (some ⟨"app/gen/../../bin/protoc"⟩) (some ⟨"bin/protoc_d"⟩)

def detour (fs : FileSystem) : Solution.Generated := (solution "sample" detourSetups).generate fs

theorem files_detour :
    (detour schemaFiles).files = schemaFiles.insert ["work", "app", "gen"] .directory := by
  have hextends := (solution "sample" detourSetups).extends_generate schemaFiles
  refine FileSystem.eq_insert_of_entries ?_ (by decide +kernel)
  rw [detour, hextends.workingDirectory]

/-- The path of the release build goes through the folder of the generated files. Before there is
one, a generation falls back on the debug build, and the next one does not. -/
theorem exists_generate_other_program :
    schemaFiles.IsTree ∧
      Workspace.load schemaFiles ⟨[]⟩ none ⟨"stepgen.toml"⟩ = .ok detourWorkspace ∧
      ofWorkspace detourWorkspace = .ok detourSetups ∧
      (∀ p ∈ detourWorkspace.manifest.projects, p.qt = none ∧
        Text.endsWith (detourWorkspace.releaseProtoc p).text ".inl" = false ∧
        Text.endsWith (detourWorkspace.debugProtoc p).text ".inl" = false) ∧
      (detour schemaFiles).result = .ok (schemaStats 2 1 [(.schemaCompile, 1)]) ∧
      (detour (detour schemaFiles).files).result = .ok (schemaStats 2 1 [(.schemaCompile, 1)]) ∧
      (detour schemaFiles).solution.members.map (·.project.configurations.map
          fun conf => conf.steps.map (·.commandLine none)) =
        [[["./bin/protoc_d --proto_path=./app message.proto --cpp_out=/work/app/gen/"]]] ∧
      (detour (detour schemaFiles).files).solution.members.map (·.project.configurations.map
          fun conf => conf.steps.map (·.commandLine none)) =
        [[["./app/gen/../../bin/protoc --proto_path=./app message.proto " ++
          "--cpp_out=/work/app/gen/"]]] := by
  have loaded : Workspace.load schemaFiles ⟨[]⟩ none ⟨"stepgen.toml"⟩ = .ok detourWorkspace := by
    have hread : schemaFiles.read ⟨"stepgen.toml"⟩ = .ok schemaManifest.toUTF8.data.toList := rfl
    rw [Workspace.load, Manifest.load, readDocument, FileSystem.readText_of_read hread]
    decide +kernel
  rw [files_detour]
  exact ⟨⟨by decide, by decide, by decide⟩, loaded, rfl, by decide +kernel, by decide +kernel,
    by decide +kernel, by decide +kernel, by decide +kernel⟩

end Setup

end BuildSteps
