import BuildSteps.Pattern.Parser
import BuildSteps.Project.Basic

/-!
# Exclusion

Which source files no generator is run on: those that a pattern of the project or of the tool
matches, and the precompiled headers and sources. Patterns are tried together: a text is matched when
one of them occurs in it.
-/

namespace BuildSteps

/-! ## 1. Pattern sets -/

structure PatternSet where
  patterns : List Pattern
  deriving DecidableEq, Repr

namespace PatternSet

def readAll : List String → Except BuildError (List Pattern)
  | [] => .ok []
  | text :: texts =>
    match Pattern.ofText text with
    | .error fault => .error (.invalidPattern text fault)
    | .ok p =>
      match readAll texts with
      | .error e => .error e
      | .ok patterns => .ok (p :: patterns)

/-- The set of the patterns that texts write; the first text that is no pattern is reported. -/
def ofTexts (texts : List String) : Except BuildError PatternSet :=
  match readAll texts with
  | .error e => .error e
  | .ok patterns => .ok ⟨patterns⟩

def matchesText (set : PatternSet) (text : String) : Bool := set.patterns.any (·.occursIn text)

def matchesPath (set : PatternSet) (p : Path) : Bool := set.matchesText p.text

end PatternSet

/-! ## 2. Excluded files -/

structure Exclusion where
  patterns : PatternSet
  /-- The names of precompiled files in lower case. -/
  precompiled : List String
  deriving DecidableEq, Repr

namespace Exclusion

/-- The exclusion of a project, with the patterns of a tool after its own. -/
def ofProject (project : Project) (toolPatterns : List String) : Except BuildError Exclusion :=
  match PatternSet.ofTexts (project.excludedPatterns ++ toolPatterns) with
  | .error e => .error e
  | .ok patterns => .ok ⟨patterns, project.precompiledFileNames⟩

def isPrecompiled (exclusion : Exclusion) (p : Path) : Bool :=
  Project.endsWithAny p exclusion.precompiled

def excludes (exclusion : Exclusion) (p : Path) : Bool :=
  exclusion.patterns.matchesPath p || exclusion.isPrecompiled p

def admitted (exclusion : Exclusion) (files : List Path) : List Path :=
  Path.insertAllLast [] (files.filter (!exclusion.excludes ·))

end Exclusion

end BuildSteps
