import BuildSteps.CommandLine.Json
import BuildSteps.Scan

/-!
# Reports

What the commands print: listings for people, and the same facts as JSON.
-/

namespace BuildSteps.CommandLine

def unlines (lines : List String) : String := String.join (lines.map (· ++ "\n"))

def padded (width : Nat) (text : String) : String :=
  text ++ String.ofList (List.replicate (width - text.length) ' ')

def zeroPadded (width n : Nat) : String :=
  let digits := toString n
  String.ofList (List.replicate (width - digits.length) '0') ++ digits

/-- How long the parts of a generation took, in nanoseconds. -/
structure Timings where
  collect : Nat
  finalize : Nat
  total : Nat
  deriving DecidableEq, Repr

def exactSeconds (nanoseconds : Nat) : String :=
  toString (nanoseconds / 1000000000) ++ "." ++ zeroPadded 9 (nanoseconds % 1000000000)

/-- Nanoseconds as seconds with two places, a half going up. -/
def roundedSeconds (nanoseconds : Nat) : String :=
  let hundredths := (nanoseconds + 5000000) / 10000000
  toString (hundredths / 100) ++ "." ++ zeroPadded 2 (hundredths % 100)

/-! ## Generation -/

def stepJson (base : Option Path) (step : Step) : Json :=
  .object
    ([("command_line", .string (step.commandLine base)),
        ("description", .string step.description),
        ("filter", .string step.filter.display)] ++
      (step.intermediateFile.map fun p =>
        ("intermediate", Json.ofPath (p.relativeTo base))).toList ++
      [("kind", .string step.kind.name), ("output", .ofPath (step.output.relativeTo base)),
        ("source", .ofPath (step.sourceFile.relativeTo base))])

def configurationJson (base : Option Path) (conf : Configuration) : Json :=
  .object [("steps", .array (conf.steps.map (stepJson base))),
    ("target", .string conf.target.display)]

def baseOf (relative : Bool) (project : Project) : Option Path :=
  if relative then some project.root else none

def projectJson (relative : Bool) (project : Project) : Json :=
  .object [("configurations",
      .array (project.configurations.map (configurationJson (baseOf relative project)))),
    ("name", .string project.name)]

def orderedSteps (stats : GenerationStats) : List (String × Nat) :=
  (stats.steps.map fun e => (e.1.name, e.2)).mergeSort fun a b => decide (a.1 ≤ b.1)

def statsJson (timings : Timings) (stats : GenerationStats) : Json :=
  .object [("collect_time", .number (exactSeconds timings.collect)),
    ("finalize_time", .number (exactSeconds timings.finalize)),
    ("generated_files", .ofNat stats.generatedFiles), ("projects", .ofNat stats.projects),
    ("source_files", .ofNat stats.sourceFiles),
    ("steps", .object ((orderedSteps stats).map fun e => (e.1, .ofNat e.2))),
    ("total_steps", .ofNat stats.totalSteps),
    ("total_time", .number (exactSeconds timings.total))]

/-- The JSON document of a generation; the entries of its objects are ordered by their keys. -/
def generationJson (relative : Bool) (solution : String) (projects : List Project)
    (stats : GenerationStats) (timings : Timings) : Json :=
  .object [("projects", .array (projects.map (projectJson relative))),
    ("solution", .string solution), ("stats", statsJson timings stats), ("success", .boolean true)]

def stepLines (base : Option Path) (step : Step) : List String :=
  ["    " ++ padded 6 step.kind.name ++ " " ++ padded 18 step.filter.display ++ " " ++
      (step.sourceFile.relativeTo base).text ++ " -> " ++ (step.output.relativeTo base).text,
    "           " ++ step.commandLine base]

def configurationLines (base : Option Path) (conf : Configuration) : List String :=
  ("  " ++ conf.target.display ++ " (" ++ toString conf.steps.length ++ " steps)") ::
    conf.steps.flatMap (stepLines base)

def projectLines (relative : Bool) (project : Project) : List String :=
  ("Project " ++ project.name) ::
    project.configurations.flatMap (configurationLines (baseOf relative project)) ++ [""]

def rule : String := String.ofList (List.replicate 60 '=')

def summaryLines (solution : String) (stats : GenerationStats) (timings : Timings) :
    List String :=
  [rule,
    "Generated " ++ toString stats.totalSteps ++ " steps for " ++ solution ++ " in " ++
      roundedSeconds timings.total ++ "s",
    rule, "  Projects: " ++ toString stats.projects,
    "  Source files: " ++ toString stats.sourceFiles ++ " (+" ++ toString stats.generatedFiles ++
      " generated)"] ++
    (orderedSteps stats).map (fun e => "  " ++ e.1 ++ ": " ++ toString e.2) ++ [rule]

/-! ## Scans -/

def scanJson (report : ScanReport) : Json :=
  .object [("name", .string report.project), ("source_files", .ofNat report.sourceFiles),
    ("moc", .ofPaths report.moc), ("rcc", .ofPaths report.rcc), ("uic", .ofPaths report.uic),
    ("protoc", .ofPaths report.protoc)]

def filesLines (root : Path) (generator : String) (files : List Path) : List String :=
  if files.isEmpty then []
  else
    ("  " ++ generator ++ " (" ++ toString files.length ++ ")") ::
      files.map fun file => "    " ++ ((root.below? file).getD file).text

def scanLines (root : Path) (report : ScanReport) : List String :=
  ("Project " ++ report.project ++ " (" ++ toString report.sourceFiles ++ " source files)") ::
    filesLines root "moc" report.moc ++ filesLines root "rcc" report.rcc ++
      filesLines root "uic" report.uic ++ filesLines root "protoc" report.protoc

end BuildSteps.CommandLine
