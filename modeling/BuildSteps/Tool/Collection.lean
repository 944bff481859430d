import BuildSteps.Exclusion

/-!
# Collecting steps

What every tool does when it registers steps: the steps of a configuration are appended to it, and
their positions go into the step table of the tool. The table lists, for each target in order of first
mention, the positions of the steps that were registered for it, in order of registration.
-/

namespace BuildSteps

/-! ## 1. Step tables -/

structure StepTable.Entry where
  target : Target
  steps : List Nat
  deriving DecidableEq, Repr

structure StepTable where
  entries : List StepTable.Entry
  deriving DecidableEq, Repr

namespace StepTable

def empty : StepTable := ⟨[]⟩

/-- Applies `change` to the steps of a target, which is added at the end when it is new. -/
def alterEntries (target : Target) (change : List Nat → List Nat) : List Entry → List Entry
  | [] => [⟨target, change []⟩]
  | e :: entries =>
    if e.target = target then ⟨target, change e.steps⟩ :: entries
    else e :: alterEntries target change entries

def ensure (table : StepTable) (target : Target) : StepTable :=
  ⟨alterEntries target id table.entries⟩

def push (table : StepTable) (target : Target) (index : Nat) : StepTable :=
  ⟨alterEntries target (· ++ [index]) table.entries⟩

def get? (table : StepTable) (target : Target) : Option (List Nat) :=
  (table.entries.find? (·.target = target)).map (·.steps)

def length (table : StepTable) : Nat := table.entries.length

def isEmpty (table : StepTable) : Bool := table.entries.isEmpty

def stepCount (table : StepTable) : Nat :=
  (table.entries.map (·.steps.length)).foldr (· + ·) 0

end StepTable

/-! ## 2. Collections -/

structure Collection where
  table : StepTable
  generated : List Path
  deriving DecidableEq, Repr

namespace Collection

def empty : Collection := ⟨.empty, []⟩

def add (c : Collection) (target : Target) (index : Nat) (step : Step) : Collection :=
  ⟨c.table.push target index, c.generated ++ step.output :: step.intermediateFile.toList⟩

def addSteps (c : Collection) (conf : Configuration) : List Step → Collection × Configuration
  | [] => (c, conf)
  | step :: steps =>
    addSteps (c.add conf.target conf.steps.length step) (conf.addStep step) steps

/-- Registers steps for configurations one after the other; `steps` gives those of a configuration, and
`prepare` changes it before they are appended. -/
def addAll (steps : Configuration → List Step) (prepare : Configuration → Configuration)
    (c : Collection) : List Configuration → Collection × List Configuration
  | [] => (c, [])
  | conf :: confs =>
    let (c, conf) := c.addSteps (prepare conf) (steps conf)
    let (c, confs) := addAll steps prepare c confs
    (c, conf :: confs)

end Collection

/-- Marks the outputs of the steps on files that are not to be compiled on their own. -/
def Configuration.excludeOutputs (conf : Configuration) (excludes : PatternSet)
    (steps : List Step) : Configuration :=
  steps.foldl (fun conf step =>
    if excludes.matchesPath step.sourceFile then
      conf.addBuildExclude (Pattern.escape step.output.fileName)
    else conf) conf

structure Collected where
  result : Except BuildError StepTable
  project : Project
  files : FileSystem

end BuildSteps
