import BuildSteps.Main
import BuildSteps.Proofs.Dependency.Interruption
import BuildSteps.Proofs.Dependency.Multiplicity
import BuildSteps.Proofs.Dependency.ChainOrder
import BuildSteps.Proofs.Tool.Sources
import BuildSteps.Proofs.MetaObjects
import BuildSteps.Proofs.Step.Hygiene
import BuildSteps.Proofs.Repetition
import BuildSteps.Proofs.Project.Growth
import BuildSteps.Proofs.Precedence
import BuildSteps.Proofs.Precompiled
import BuildSteps.Proofs.Step.IncludePaths
import BuildSteps.Proofs.Project.Bundle
import BuildSteps.Proofs.Solution.Commutation
import BuildSteps.Proofs.Tool.Mirroring
import BuildSteps.Proofs.Project.Search
import BuildSteps.Proofs.Settings
import BuildSteps.Proofs.PathTemplate
import BuildSteps.Proofs.Tool.Uncompiled
import BuildSteps.Proofs.NearestManifest
import BuildSteps.Proofs.StepTable.Log
import BuildSteps.Proofs.Dependency.Search
import BuildSteps.Proofs.Placeholder
import BuildSteps.Proofs.Solution.Statistics
import BuildSteps.Proofs.Dependency.Visit
import BuildSteps.Proofs.Path.Route
import BuildSteps.Proofs.MarkerScanner.Window
