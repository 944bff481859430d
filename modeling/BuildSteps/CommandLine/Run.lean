import BuildSteps.CommandLine.Report
import BuildSteps.CommandLine.Usage

/-!
# Running a command line

What the program does with a command line: a response, or a generation to be carried out first.
-/

namespace BuildSteps.CommandLine

/-- A failure: what could not be done, and the causes behind it, the nearest first. -/
structure Failure where
  message : String
  causes : List String
  deriving DecidableEq, Repr

namespace Failure

def plain (message : String) : Failure := ⟨message, []⟩

def ofConfigError (message : String) (e : ConfigError) : Failure :=
  ⟨message, e.message :: (e.cause?.map FileError.message).toList⟩

/-- A cause whose first line stands behind `start` and whose other lines behind `margin`. -/
def indented (start margin cause : String) : String :=
  "\n" ++ start ++ Text.join ("\n" ++ margin) (Text.split '\n' cause)

def numbered (number : Nat) : List String → String
  | [] => ""
  | cause :: causes =>
    let digits := toString number
    let start := String.ofList (List.replicate (5 - digits.length) ' ') ++ digits ++ ": "
    indented start "       " cause ++ numbered (number + 1) causes

def text (f : Failure) : String :=
  "Error: " ++ f.message ++
    match f.causes with
    | [] => ""
    | [cause] => "\n\nCaused by:" ++ indented "    " "    " cause
    | causes => "\n\nCaused by:" ++ numbered 0 causes

end Failure

structure Response where
  exitCode : Nat
  output : String
  errors : String
  files : FileSystem

namespace Response

def printed (files : FileSystem) (output : String) : Response := ⟨0, output, "", files⟩

def failed (files : FileSystem) (f : Failure) : Response := ⟨1, "", f.text ++ "\n", files⟩

def misused (files : FileSystem) : Response := ⟨2, "", Usage.hint, files⟩

end Response

structure Generation where
  solution : Solution
  invocation : Invocation

def Invocation.concerns (i : Invocation) (name : String) : Bool :=
  match i.project with
  | some wanted => wanted == name
  | none => true

def Generation.report (g : Generation) (timings : Timings) (generated : Solution.Generated) :
    Response :=
  match generated.result with
  | .error e => .failed generated.files ⟨"Step generation failed", [e.message]⟩
  | .ok stats =>
    let projects := generated.solution.projects.filter fun p => g.invocation.concerns p.name
    let name := generated.solution.name
    let relative := g.invocation.relative
    .printed generated.files
      (if g.invocation.json then
        (generationJson relative name projects stats timings).text ++ "\n"
      else
        unlines
          ((if g.invocation.quiet then [] else projects.flatMap (projectLines relative)) ++
            summaryLines name stats timings))

/-- What is to be done for a command line. -/
inductive Task where
  | respond (response : Response)
  | generate (generation : Generation)

def unknownProject (project : String) (w : Workspace) : Failure :=
  .plain ("Project '" ++ project ++ "' not found in " ++ w.manifest.solution.name)

def scanFailure : ScanError → Failure
  | .discovery project cause =>
    ⟨"Failed to discover sources of '" ++ project ++ "'", [cause.message]⟩
  | .selection cause => .plain cause.message

def scan (fs : FileSystem) (w : Workspace) (i : Invocation) (setups : List Setup) : Response :=
  match Setup.scanAll fs setups with
  | .error e => .failed fs (scanFailure e)
  | .ok reports =>
    .printed fs
      (if i.json then (Json.array (reports.map scanJson)).text ++ "\n"
      else unlines (reports.flatMap (scanLines w.root)))

def start (fs : FileSystem) (w : Workspace) (i : Invocation) : Task :=
  match Setup.ofWorkspace w with
  | .error (project, e) =>
    .respond (.failed fs (.ofConfigError ("Invalid project '" ++ project ++ "'") e))
  | .ok setups =>
    let concerned := setups.filter fun s => i.concerns s.project.name
    match i.project, concerned with
    | some project, [] => .respond (.failed fs (unknownProject project w))
    | _, _ =>
      match i.command with
      | .generate => .generate ⟨Setup.solution w.manifest.solution.name setups, i⟩
      | .scan => .respond (scan fs w i concerned)

def loadWorkspace (fs : FileSystem) (env : Environment) (i : Invocation) :
    Except Failure Workspace :=
  match i.manifest with
  | some file =>
    match Workspace.load fs env none file with
    | .error e => .error (.ofConfigError ("Failed to load " ++ file.text) e)
    | .ok w => .ok w
  | none =>
    match Workspace.loadAround fs env none fs.currentPath with
    | .error e => .error (.ofConfigError ("Failed to load " ++ Manifest.fileName) e)
    | .ok w => .ok w

def invoke (fs : FileSystem) (env : Environment) (i : Invocation) : Task :=
  match loadWorkspace fs env i with
  | .error failure => .respond (.failed fs failure)
  | .ok w =>
    match LogLevel.choose i.logLevel i.verbose i.quiet w.logLevel with
    | .error e => .respond (.failed fs (.plain e.message))
    | .ok _ => start fs w i

def task (fs : FileSystem) (env : Environment) (words : List String) : Task :=
  match read env words with
  | .help => .respond (.printed fs Usage.help)
  | .version command => .respond (.printed fs (Usage.version command ++ "\n"))
  | .misuse => .respond (.misused fs)
  | .run i => invoke fs env i

def run (fs : FileSystem) (env : Environment) (timings : Timings) (words : List String) :
    Response :=
  match task fs env words with
  | .respond response => response
  | .generate g => g.report timings (g.solution.generate fs)

end BuildSteps.CommandLine
