import BuildSteps.Settings

/-!
# Workspaces

A workspace is a manifest with the settings that apply to it and the folder it stands in. Settings
come from the file of the user; variables of the environment take precedence over that file, and the
manifest names what concerns a single project.
-/

namespace BuildSteps

structure Environment where
  bindings : List (String × String)
  deriving DecidableEq, Repr

def Environment.get? (env : Environment) (name : String) : Option String :=
  (env.bindings.find? (·.1 == name)).map (·.2)

def Environment.home? (env : Environment) : Option Path :=
  match env.get? "HOME" with
  | some home => if home.isEmpty then none else some ⟨home⟩
  | none => none

/-- A manifest, the settings that apply to it, and its folder. -/
structure Workspace where
  manifest : Manifest
  settings : Settings
  root : Path
  deriving DecidableEq, Repr

namespace Workspace

/-- The file of the user's settings: the one given, or that in the home folder. -/
def settingsFile? (env : Environment) (given : Option Path) : Option Path :=
  given <|> env.home?.map Settings.fileIn

/-- The settings of the user; a file that is not there says nothing. -/
def loadSettings (fs : FileSystem) (env : Environment) (given : Option Path) :
    Except ConfigError Settings :=
  match settingsFile? env given with
  | none => .ok .empty
  | some file => if fs.pathExists file then Settings.load fs file else .ok .empty

def applyEnvironment (env : Environment) (s : Settings) : Except ConfigError Settings :=
  let s :=
    match env.get? "STEPGEN_QT_DIR" with
    | some dir => s.alterTools ({ · with qtDir := some ⟨dir⟩ })
    | none => s
  let s :=
    match env.get? "STEPGEN_PROTOC" with
    | some protoc => s.alterTools ({ · with protoc := some ⟨protoc⟩ })
    | none => s
  match env.get? "STEPGEN_LOG_LEVEL" with
  | none => .ok s
  | some level =>
    match Settings.checkLogLevel "STEPGEN_LOG_LEVEL" level with
    | .error e => .error e
    | .ok () => .ok (s.setLogLevel (some (Text.lowercase level)))

def resolvePath (w : Workspace) (p : Path) : Path := w.root.join p

def projectRoot (w : Workspace) (p : ProjectManifest) : Path := w.resolvePath p.directory

/-- The folder of the Qt generators of a project: the one it names, or that of the settings. -/
def qtBinDir (w : Workspace) (p : ProjectManifest) : Except ConfigError Path :=
  match p.qt.bind (·.binDir), w.settings.qtDir with
  | some dir, _ => .ok (w.resolvePath dir)
  | none, some dir => .ok (dir.join ⟨"bin"⟩)
  | none, none => .error (.missingQtFolder p.name (w.root.join ⟨Manifest.fileName⟩))

/-- The schema compiler when neither the manifest nor the settings name one. -/
def defaultProtoc : Path := ⟨"protoc"⟩

def releaseProtoc (w : Workspace) (p : ProjectManifest) : Path :=
  ((p.proto.bind (·.releaseExecutable)).map w.resolvePath <|> w.settings.protoc).getD defaultProtoc

/-- The debug build of the schema compiler of a project, by default the release build. -/
def debugProtoc (w : Workspace) (p : ProjectManifest) : Path :=
  ((p.proto.bind (·.debugExecutable)).map w.resolvePath <|> w.settings.protocDebug).getD
    (w.releaseProtoc p)

def firstMissing? (w : Workspace) : List ProjectManifest → Option ConfigError
  | [] => none
  | p :: rest =>
    if p.qt.isSome then
      match w.qtBinDir p with
      | .error e => some e
      | .ok _ => w.firstMissing? rest
    else w.firstMissing? rest

def validate (w : Workspace) : Except ConfigError Unit :=
  match w.firstMissing? w.manifest.projects with
  | some e => .error e
  | none => .ok ()

/-- The folder of a manifest file, `.` for a bare file name. -/
def folderOf (file : Path) : Path :=
  match file.parent? with
  | some parent => if parent.text.isEmpty then ⟨"."⟩ else parent
  | none => ⟨"."⟩

def load (fs : FileSystem) (env : Environment) (settingsFile : Option Path) (file : Path) :
    Except ConfigError Workspace :=
  match Manifest.load fs file with
  | .error e => .error e
  | .ok manifest =>
    match loadSettings fs env settingsFile with
    | .error e => .error e
    | .ok settings =>
      match applyEnvironment env settings with
      | .error e => .error e
      | .ok settings =>
        let w : Workspace := ⟨manifest, settings, folderOf file⟩
        match w.validate with
        | .error e => .error e
        | .ok () => .ok w

/-- Looks for a manifest in a folder and, as long as there is none, in the folders that its text
names around it; at most `steps` folders are looked at. -/
def findFrom? (fs : FileSystem) : Nat → Path → Option Path
  | 0, _ => none
  | steps + 1, folder =>
    let file := folder.join ⟨Manifest.fileName⟩
    if fs.isFile file then some file
    else folder.parent?.bind (findFrom? fs steps)

def findManifest (fs : FileSystem) (start : Path) : Except ConfigError Path :=
  match findFrom? fs (start.pieces.length + 2) start with
  | some file => .ok file
  | none => .error (.notFound (start.join ⟨Manifest.fileName⟩))

def loadAround (fs : FileSystem) (env : Environment) (settingsFile : Option Path)
    (start : Path) : Except ConfigError Workspace :=
  match findManifest fs start with
  | .error e => .error e
  | .ok file => load fs env settingsFile file

def logLevel (w : Workspace) : Option String := w.settings.logLevel

end Workspace

end BuildSteps
