import BuildSteps.CommandLine.Run

/-!
# The program

Takes what a command line concerns of the real file system into a value, computes the response, and
carries it out: creates the new folders and files and prints.
-/

namespace BuildSteps.Program

open CommandLine

/-- What really stands at a place; the content of a file is read only when it is wanted. -/
def nodeAt? (wanted : Bool) (place : Place) : IO (Option Node) := do
  let file := (← IO.currentDir) / (FileSystem.pathOf place).text
  try
    match (← file.symlinkMetadata).type with
    | .dir => return some .directory
    | .file =>
      if wanted then return some (.file (← IO.FS.readBinFile file).toList)
      else return some (.file [])
    | .symlink =>
      let target ← try pure (← IO.FS.realPath file).toString catch _ => pure ""
      return some (.link target)
    | .other => return none
  catch _ => return none

def record (wanted : Bool) : Nat → FileSystem → Path → IO FileSystem
  | 0, fs, _ => return fs
  | steps + 1, fs, p =>
    match fs.follow true p with
    | .ok (.missing folder name _) => do
      match ← nodeAt? wanted (folder ++ [name]) with
      | some node => record wanted steps (fs.insert (folder ++ [name]) node) p
      | none => return fs
    | _ => return fs

def stepLimit : Nat := 10000

def recordPlace (wanted : Path → Bool) : Nat → FileSystem → Place → IO FileSystem
  | 0, fs, _ => return fs
  | depth + 1, fs, place => do
    let p := FileSystem.pathOf place
    let fs ← record (wanted p) stepLimit fs p
    if fs.isDirectoryAt place then
      let folder := (← IO.currentDir) / p.text
      let entries ← try folder.readDir catch _ => pure #[]
      entries.foldlM (fun fs entry => recordPlace wanted depth fs (place ++ [entry.fileName])) fs
    else return fs

def recordBelow (wanted : Path → Bool) (fs : FileSystem) (p : Path) : IO FileSystem := do
  let fs ← record false stepLimit fs p
  match fs.find p with
  | .ok place => recordPlace wanted stepLimit fs place
  | .error _ => return fs

def around (place : Place) : List Place :=
  (List.range (place.length + 1)).map place.take

def recordWorkspace (env : Environment) (i : Invocation) (fs : FileSystem) : IO FileSystem := do
  let manifests :=
    match i.manifest with
    | some file => [file]
    | none =>
      (around fs.workingDirectory).map fun folder =>
        (FileSystem.pathOf folder).join ⟨Manifest.fileName⟩
  let files := manifests ++ (Workspace.settingsFile? env none).toList
  files.foldlM (record true stepLimit) fs

def recordSetup (fs : FileSystem) (s : Setup) : IO FileSystem := do
  let wanted := fun (p : Path) =>
    match s.qt with
    | some tool => p.hasExtension tool.scanExtensions
    | none => false
  let folders :=
    s.project.sourceRoots.map s.project.root.join ++ (s.qt.map (·.sharedFolder)).toList ++
      (s.schema.map fun tool => tool.destinationFolder.resolveFrom fs.currentPath).toList
  let programs :=
    (s.schema.map fun tool => [tool.releaseExecutable, tool.debugExecutable]).getD []
  let fs ← folders.foldlM (recordBelow wanted) fs
  programs.foldlM (record false stepLimit) fs

/-- Takes in what a command line concerns. -/
def snapshot (env : Environment) (words : List String) : IO FileSystem := do
  let here : Path := ⟨(← IO.currentDir).toString⟩
  let fs ← record false stepLimit ⟨Path.resolveNames here.components, []⟩ here
  match read env words with
  | .run i =>
    let fs ← recordWorkspace env i fs
    match loadWorkspace fs env i with
    | .error _ => return fs
    | .ok w =>
      match Setup.ofWorkspace w with
      | .error _ => return fs
      | .ok setups => setups.foldlM recordSetup fs
  | _ => return fs

/-- The response to a command line, with the times that a generation really takes. -/
def respond (fs : FileSystem) (env : Environment) (words : List String) : IO Response := do
  match task fs env words with
  | .respond response => return response
  | .generate g =>
    let start ← IO.monoNanosNow
    let gathered ← IO.lazyPure fun _ => g.solution.collect fs
    let middle ← IO.monoNanosNow
    let generated ← IO.lazyPure fun _ =>
      match gathered with
      | .error generated => generated
      | .ok gathered => g.solution.finalize gathered
    let stop ← IO.monoNanosNow
    return g.report ⟨middle - start, stop - middle, stop - start⟩ generated

def carryOut (before after : FileSystem) : IO Unit := do
  for (place, node) in after.entries.drop before.entries.length do
    let file := (← IO.currentDir) / (FileSystem.pathOf place).text
    match node with
    | .directory => IO.FS.createDir file
    | .file content => IO.FS.writeBinFile file ⟨content.toArray⟩
    | .link _ => pure ()

def environment : IO Environment := do
  let names := ["HOME", "STEPGEN_QT_DIR", "STEPGEN_PROTOC", "STEPGEN_LOG_LEVEL", "STEPGEN_JSON"]
  let values ← names.mapM fun name => do
    return ((← IO.getEnv name).map fun value => (name, value)).toList
  return ⟨values.flatten⟩

end BuildSteps.Program

def main (words : List String) : IO UInt32 := do
  let env ← BuildSteps.Program.environment
  let fs ← BuildSteps.Program.snapshot env words
  let response ← BuildSteps.Program.respond fs env words
  BuildSteps.Program.carryOut fs response.files
  IO.print response.output
  IO.eprint response.errors
  return UInt32.ofNat response.exitCode
