import BuildSteps.Tool.Collection

/-!
# The schema tool

Every schema file gets one step in each configuration. Generated headers repeat the tree of the
schemas: a file two folders below the schema root has its header two folders below the destination.
-/

namespace BuildSteps

structure SchemaTool where
  /-- The root of the schemas. -/
  sourceFolder : Path
  /-- The root of the generated headers. -/
  destinationFolder : Path
  releaseExecutable : Path
  debugExecutable : Path
  /-- Patterns of files that no step is made for. -/
  excludedPatterns : List String
  /-- Patterns of files whose output is listed but not compiled on its own. -/
  uncompiledPatterns : List String
  additional : List AdditionalDefinition
  deriving DecidableEq, Repr

namespace SchemaTool

def create (sourceFolder destinationFolder releaseExecutable debugExecutable : Path) :
    SchemaTool where
  sourceFolder := sourceFolder
  destinationFolder := destinationFolder
  releaseExecutable := releaseExecutable
  debugExecutable := debugExecutable
  excludedPatterns := []
  uncompiledPatterns := []
  additional := []

/-- The release program if it is there, else the debug program if that one is. The program may be
built by the same solution, so that neither is there yet; then it is the release program. -/
def executable (tool : SchemaTool) (fs : FileSystem) : Path :=
  if fs.isFile tool.releaseExecutable then tool.releaseExecutable
  else if fs.isFile tool.debugExecutable then tool.debugExecutable
  else tool.releaseExecutable

/-- Whether a path has the extension of schemas, whatever the case of its ASCII letters. -/
def isSchema (p : Path) : Bool :=
  match p.extension? with
  | none => false
  | some extension => Text.lowercaseAscii extension == "proto"

def select (tool : SchemaTool) (project : Project) : Except BuildError (List Path) :=
  match Exclusion.ofProject project tool.excludedPatterns with
  | .error e => .error e
  | .ok exclusion => .ok ((exclusion.admitted project.sourceFiles).filter isSchema)

def outputFolder (tool : SchemaTool) (workingDirectory file : Path) : Path :=
  let folder := (file.parent?.getD ⟨""⟩).resolveFrom workingDirectory
  let root := tool.sourceFolder.resolveFrom workingDirectory
  let below := ((folder.commonAncestor root).below? folder).getD ⟨""⟩
  (tool.destinationFolder.resolveFrom workingDirectory).join below

def createFolders (fs : FileSystem) : List Path → Except BuildError Unit × FileSystem
  | [] => (.ok (), fs)
  | folder :: folders =>
    if fs.isDirectory folder then createFolders fs folders
    else
      match fs.makeDirectories folder with
      | (.error e, fs) => (.error (.cannotCreate folder e), fs)
      | (.ok (), fs) => createFolders fs folders

def steps (executable : Path) (files : List (Path × Path)) (target : Target) : List Step :=
  files.map fun file => Step.schema target executable file.2 file.1

def collect (tool : SchemaTool) (fs : FileSystem) (project : Project) : Collected :=
  match tool.select project with
  | .error e => ⟨.error e, project, fs⟩
  | .ok files =>
    match PatternSet.ofTexts tool.uncompiledPatterns with
    | .error e => ⟨.error e, project, fs⟩
    | .ok uncompiled =>
      let project := { project with
        configurations :=
          project.configurations.map (·.addPrivateIncludePath tool.destinationFolder) }
      if files.isEmpty then ⟨.ok .empty, project, fs⟩
      else
        let folders := files.map (tool.outputFolder fs.currentPath)
        match createFolders fs folders with
        | (.error e, made) => ⟨.error e, project, made⟩
        | (.ok (), made) =>
          let stepsOf := fun (conf : Configuration) =>
            steps (tool.executable fs) (files.zip folders) conf.target
          let (collection, confs) :=
            Collection.empty.addAll stepsOf
              (fun conf => conf.excludeOutputs uncompiled (stepsOf conf)) project.configurations
          { result := .ok collection.table
            project :=
              ({ project with configurations := confs } : Project).addSourceFiles
                collection.generated
            files := made }

end SchemaTool

end BuildSteps
