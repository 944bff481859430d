import BuildSteps.Tool.Qt
import BuildSteps.Tool.Schema

/-!
# Tools

A tool takes part in generation twice: it collects steps while the lists of files are open, and it
finalizes them once include paths and defines are final. Finalization attaches to the steps in a table
the bundle of their configuration, which must have been resolved before. Configurations are treated in
the order of the table; those before an error keep their bundles.
-/

namespace BuildSteps

/-! ## 1. Finalization -/

namespace Finalization

/-- Attaches a bundle to the step at a position; a position without a step counts for nothing. -/
def attachAt (bundle : Bundle) (steps : List Step) (index : Nat) : List Step :=
  match steps[index]? with
  | none => steps
  | some step => steps.set index (step.attach bundle)

def attachSteps (additional : List AdditionalDefinition) (indices : List Nat)
    (conf : Configuration) : Configuration :=
  { conf with steps := indices.foldl (attachAt (conf.bundle additional)) conf.steps }

/-- Treats the entries of a table one after the other. `updated` counts the steps so far. -/
def finalizeEntries (additional : List AdditionalDefinition) (updated : Nat)
    (project : Project) : List StepTable.Entry → Except BuildError Nat × Project
  | [] => (.ok updated, project)
  | entry :: entries =>
    match project.configuration? entry.target with
    | none => (.error (.missingConfiguration project.name entry.target), project)
    | some conf =>
      if conf.resolved then
        finalizeEntries additional
          (updated + (entry.steps.filter (· < conf.steps.length)).length)
          (project.alterConfiguration entry.target (attachSteps additional entry.steps)) entries
      else (.error (.unresolvedConfiguration project.name entry.target), project)

end Finalization

def finalizeSteps (project : Project) (table : StepTable)
    (additional : List AdditionalDefinition) : Except BuildError Nat × Project :=
  Finalization.finalizeEntries additional 0 project table.entries

/-! ## 2. Tools -/

inductive Tool where
  | qt (tool : QtTool)
  | schema (tool : SchemaTool)
  deriving DecidableEq, Repr

namespace Tool

def name : Tool → String
  | qt _ => "moc"
  | schema _ => "protoc"

def additional : Tool → List AdditionalDefinition
  | qt tool => tool.additional
  | schema tool => tool.additional

def collect (tool : Tool) (fs : FileSystem) (project : Project) : Collected :=
  match tool with
  | qt tool => tool.collect fs project
  | schema tool => tool.collect fs project

def finalize (tool : Tool) (table : StepTable) (project : Project) :
    Except BuildError Unit × Project :=
  match finalizeSteps project table tool.additional with
  | (.ok _, project) => (.ok (), project)
  | (.error e, project) => (.error e, project)

end Tool

end BuildSteps
