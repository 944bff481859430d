import BuildSteps.Proofs.Workspace

/-!
# Which source of a setting wins

The environment takes precedence over the settings of the user, and is looked up in their place. What
the manifest says of a single project is looked up before both.
-/

namespace BuildSteps

/-! ## 1. Three sources -/

structure Layers where
  environment : Option Path
  manifest : Option Path
  user : Option Path

namespace Layers

def manifestFirst (l : Layers) : Option Path := l.manifest <|> l.environment <|> l.user

def environmentFirst (l : Layers) : Option Path := l.environment <|> l.manifest <|> l.user

def Agree (l : Layers) : Prop :=
  l.environment = none ∨ l.manifest = none ∨ l.environment = l.manifest

theorem manifestFirst_eq_iff (l : Layers) : l.manifestFirst = l.environmentFirst ↔ l.Agree := by
  obtain ⟨environment, manifest, user⟩ := l
  cases environment <;> cases manifest <;>
    simp [manifestFirst, environmentFirst, Agree, eq_comm]

theorem getD_manifestFirst_eq_iff (l : Layers) (usual : Path) :
    l.manifestFirst.getD usual = l.environmentFirst.getD usual ↔ l.Agree := by
  obtain ⟨environment, manifest, user⟩ := l
  cases environment <;> cases manifest <;>
    simp [manifestFirst, environmentFirst, Agree, eq_comm]

end Layers

/-! ## 2. The environment -/

/-- A log level that the environment sets leaves the section on generators as it is. -/
theorem Settings.tools_of_level {level : Option String} {s settings : Settings}
    (h : (match level with
      | none => .ok s
      | some level =>
        match checkLogLevel "STEPGEN_LOG_LEVEL" level with
        | .error e => .error e
        | .ok () => .ok (s.setLogLevel (some (Text.lowercase level)))) =
      (.ok settings : Except ConfigError Settings)) : settings.tools = s.tools := by
  split at h
  · obtain rfl := Except.ok.inj h
    rfl
  · split at h
    · cases h
    · obtain rfl := Except.ok.inj h
      rfl

/-- What the environment sets stands in place of what the user has set. -/
theorem Workspace.applyEnvironment_ok {env : Environment} {user settings : Settings}
    (h : applyEnvironment env user = .ok settings) :
    settings.qtDir = ((env.get? "STEPGEN_QT_DIR").map Path.mk <|> user.qtDir) ∧
      settings.protoc = ((env.get? "STEPGEN_PROTOC").map Path.mk <|> user.protoc) := by
  have htools := Settings.tools_of_level h
  obtain ⟨tools, logging⟩ := user
  rw [Settings.qtDir, Settings.protoc, htools]
  cases env.get? "STEPGEN_QT_DIR" <;> cases env.get? "STEPGEN_PROTOC" <;> cases tools <;>
    exact ⟨rfl, rfl⟩

/-! ## 3. Generators of a loaded workspace -/

namespace Workspace

def qtLayers (w : Workspace) (env : Environment) (user : Settings) (p : ProjectManifest) :
    Layers where
  environment := (env.get? "STEPGEN_QT_DIR").map fun dir => Path.join ⟨dir⟩ ⟨"bin"⟩
  manifest := (p.qt.bind (·.binDir)).map w.resolvePath
  user := user.qtDir.map (·.join ⟨"bin"⟩)

def protocLayers (w : Workspace) (env : Environment) (user : Settings) (p : ProjectManifest) :
    Layers where
  environment := (env.get? "STEPGEN_PROTOC").map Path.mk
  manifest := (p.proto.bind (·.releaseExecutable)).map w.resolvePath
  user := user.protoc

variable {w : Workspace} {env : Environment} {user : Settings}

theorem qtBinDir_eq_ok_iff (h : applyEnvironment env user = .ok w.settings) (p : ProjectManifest)
    (dir : Path) :
    w.qtBinDir p = .ok dir ↔ (w.qtLayers env user p).manifestFirst = some dir := by
  rw [qtBinDir, (applyEnvironment_ok h).1, qtLayers, Layers.manifestFirst]
  cases p.qt.bind (·.binDir) <;> cases env.get? "STEPGEN_QT_DIR" <;> cases user.qtDir <;> simp

theorem releaseProtoc_eq (h : applyEnvironment env user = .ok w.settings) (p : ProjectManifest) :
    w.releaseProtoc p = (w.protocLayers env user p).manifestFirst.getD defaultProtoc := by
  rw [releaseProtoc, (applyEnvironment_ok h).2, protocLayers, Layers.manifestFirst]

/-- **The manifest wins.** In a workspace that was loaded, the folder of the Qt generators and the
schema compiler of a project are those that the manifest names, else those of the environment, else
those of the user. So the environment has the last word exactly where the manifest is silent or says
the same. -/
theorem generators_of_load {fs : FileSystem} {given : Option Path} {file : Path}
    (loaded : Workspace.load fs env given file = .ok w) :
    w.root = folderOf file ∧ ∃ user, loadSettings fs env given = .ok user ∧
      ∀ p ∈ w.manifest.projects,
        let qt := w.qtLayers env user p
        let protoc := w.protocLayers env user p
        (p.qt.isSome = true → ∃ dir, w.qtBinDir p = .ok dir ∧ qt.manifestFirst = some dir ∧
          (qt.environmentFirst = some dir ↔ qt.Agree)) ∧
        w.releaseProtoc p = protoc.manifestFirst.getD defaultProtoc ∧
        (w.releaseProtoc p = protoc.environmentFirst.getD defaultProtoc ↔ protoc.Agree) := by
  obtain ⟨-, ⟨user, huser, hsettings⟩, hroot, hvalid⟩ := load_ok loaded
  refine ⟨hroot, user, huser, fun p hp => ⟨fun husesQt => ?_, releaseProtoc_eq hsettings p, ?_⟩⟩
  · obtain ⟨dir, hdir⟩ := qtBinDir_of_validate hvalid hp husesQt
    have hfirst := (qtBinDir_eq_ok_iff hsettings p dir).1 hdir
    refine ⟨dir, hdir, hfirst, ?_⟩
    rw [← hfirst, eq_comm, Layers.manifestFirst_eq_iff]
  · rw [releaseProtoc_eq hsettings p]
    exact Layers.getD_manifestFirst_eq_iff _ _

def layeredFiles : FileSystem where
  workingDirectory := []
  entries := [
    (["stepgen.toml"], .file (Text.join "\n" [
      "[solution]", "name = \"sample\"",
      "[[project]]", "name = \"app\"",
      "[project.qt]", "bin_dir = \"tools/qt\"", "shared_folder = \"moc\"",
      "[project.proto]", "source_folder = \".\"", "destination_folder = \"gen\"",
      "release_executable = \"tools/protoc\"",
      "[[project]]", "name = \"base\"", "[project.qt]", "shared_folder = \"moc\""]).toUTF8.toList),
    (["user.toml"], .file (Text.join "\n" [
      "[tools]", "qt_dir = \"/user/qt\"", "protoc = \"/user/protoc\""]).toUTF8.toList)]

def layeredEnvironment : Environment where
  bindings := [("STEPGEN_QT_DIR", "/env/qt"), ("STEPGEN_PROTOC", "/env/protoc")]

def layeredWorkspace : Except ConfigError Workspace :=
  load layeredFiles layeredEnvironment (some ⟨"user.toml"⟩) ⟨"stepgen.toml"⟩

/-- The first project keeps to the manifest, the second one follows the environment. -/
theorem layeredWorkspace_ok :
    ∃ w, layeredWorkspace = .ok w ∧ w.manifest.projects.map (fun p =>
        (p.qt.isSome && p.proto.isSome, w.qtBinDir p, w.releaseProtoc p)) =
      [(true, .ok ⟨"./tools/qt"⟩, ⟨"./tools/protoc"⟩),
        (false, .ok ⟨"/env/qt/bin"⟩, ⟨"/env/protoc"⟩)] := by
  have hread : layeredFiles.read ⟨"stepgen.toml"⟩ = .ok (String.toUTF8 _).toList := rfl
  exact exists_load_of_readText (FileSystem.readText_of_bytes hread) (by decide +kernel)

theorem generators_of_load_layered :
    ∃ w, layeredWorkspace = .ok w ∧
      w.manifest.projects.map (fun p => (w.qtBinDir p, w.releaseProtoc p)) =
        [(.ok ⟨"./tools/qt"⟩, ⟨"./tools/protoc"⟩), (.ok ⟨"/env/qt/bin"⟩, ⟨"/env/protoc"⟩)] ∧
      ∃ user, loadSettings layeredFiles layeredEnvironment (some ⟨"user.toml"⟩) = .ok user ∧
        ∀ p ∈ w.manifest.projects, p.qt.isSome = true → ∃ dir, w.qtBinDir p = .ok dir ∧
          (w.qtLayers layeredEnvironment user p).manifestFirst = some dir := by
  obtain ⟨w, loaded, hgenerators⟩ := layeredWorkspace_ok
  obtain ⟨-, user, huser, hall⟩ := generators_of_load loaded
  refine ⟨w, loaded, ?_, user, huser, fun p hp husesQt => ?_⟩
  · have hpairs := congrArg (List.map Prod.snd) hgenerators
    rwa [List.map_map] at hpairs
  · obtain ⟨dir, hdir, hfirst, -⟩ := (hall p hp).1 husesQt
    exact ⟨dir, hdir, hfirst⟩

/-- The environment names the folder of the Qt generators and the schema compiler, and a project that
needs them has others. -/
theorem exists_generators_besides_environment :
    layeredEnvironment.get? "STEPGEN_QT_DIR" = some "/env/qt" ∧
      layeredEnvironment.get? "STEPGEN_PROTOC" = some "/env/protoc" ∧
      ∃ w, layeredWorkspace = .ok w ∧ ∃ p ∈ w.manifest.projects,
        p.qt.isSome = true ∧ p.proto.isSome = true ∧
        w.qtBinDir p ≠ .ok (Path.join ⟨"/env/qt"⟩ ⟨"bin"⟩) ∧
        w.releaseProtoc p ≠ ⟨"/env/protoc"⟩ := by
  obtain ⟨w, loaded, hgenerators⟩ := layeredWorkspace_ok
  refine ⟨by decide, by decide, w, loaded, ?_⟩
  obtain ⟨p, rest, hprojects, hfirst, -⟩ := List.map_eq_cons_iff.1 hgenerators
  obtain ⟨huses, hrest⟩ := Prod.mk.inj hfirst
  obtain ⟨hdir, hprotoc⟩ := Prod.mk.inj hrest
  rw [Bool.and_eq_true] at huses
  refine ⟨p, hprojects ▸ List.mem_cons_self, huses.1, huses.2, ?_, ?_⟩
  · rw [hdir]
    decide
  · rw [hprotoc]
    decide

end Workspace

end BuildSteps
