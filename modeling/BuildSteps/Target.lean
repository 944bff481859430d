import BuildSteps.Unicode.Case

/-!
# Targets

A target is one point of the matrix of platforms, development environments and optimization levels.
It identifies a configuration inside a project.
-/

namespace BuildSteps

inductive Platform where
  | win32 | win64 | durango | android | mac | linux
  deriving DecidableEq, Repr

inductive DevEnv where
  | vs2017 | vs2019 | vs2022 | xcode | make
  deriving DecidableEq, Repr

inductive Optimization where
  | debug | release | retail
  deriving DecidableEq, Repr

namespace Platform

def name : Platform → String
  | win32 => "win32"
  | win64 => "win64"
  | durango => "durango"
  | android => "android"
  | mac => "mac"
  | linux => "linux"

def all : List Platform := [win32, win64, durango, android, mac, linux]

def ofText? (text : String) : Option Platform :=
  let lower := Text.lowercase text
  all.find? (·.name == lower)

theorem mem_all (p : Platform) : p ∈ all := by cases p <;> decide

end Platform

namespace DevEnv

def name : DevEnv → String
  | vs2017 => "vs2017"
  | vs2019 => "vs2019"
  | vs2022 => "vs2022"
  | xcode => "xcode"
  | make => "make"

def all : List DevEnv := [vs2017, vs2019, vs2022, xcode, make]

def ofText? (text : String) : Option DevEnv :=
  let lower := Text.lowercase text
  all.find? (·.name == lower)

theorem mem_all (d : DevEnv) : d ∈ all := by cases d <;> decide

end DevEnv

namespace Optimization

/-- The name of an optimization level as it stands in configuration names. -/
def name : Optimization → String
  | debug => "Debug"
  | release => "Release"
  | retail => "Retail"

def key : Optimization → String
  | debug => "debug"
  | release => "release"
  | retail => "retail"

def all : List Optimization := [debug, release, retail]

def ofText? (text : String) : Option Optimization :=
  let lower := Text.lowercaseAscii text
  all.find? (·.key == lower)

theorem mem_all (o : Optimization) : o ∈ all := by cases o <;> decide

end Optimization

/-- What identifies a configuration: one platform, development environment and optimization. -/
structure Target where
  platform : Platform
  devEnv : DevEnv
  optimization : Optimization
  deriving DecidableEq, Repr

namespace Target

def name (t : Target) : String := t.optimization.name

def display (t : Target) : String :=
  t.optimization.name ++ "|" ++ t.platform.name ++ "|" ++ t.devEnv.name

/-- Every combination; the optimization varies fastest and the platform slowest. -/
def matrix (platforms : List Platform) (devEnvs : List DevEnv)
    (optimizations : List Optimization) : List Target :=
  platforms.flatMap fun platform =>
    devEnvs.flatMap fun devEnv =>
      optimizations.map fun optimization => ⟨platform, devEnv, optimization⟩

theorem mem_matrix {platforms : List Platform} {devEnvs : List DevEnv}
    {optimizations : List Optimization} {t : Target} :
    t ∈ matrix platforms devEnvs optimizations ↔
      t.platform ∈ platforms ∧ t.devEnv ∈ devEnvs ∧ t.optimization ∈ optimizations := by
  simp only [matrix, List.mem_flatMap, List.mem_map]
  constructor
  · rintro ⟨p, hp, d, hd, o, ho, rfl⟩
    exact ⟨hp, hd, ho⟩
  · rintro ⟨hp, hd, ho⟩
    exact ⟨_, hp, _, hd, _, ho, rfl⟩

def all : List Target := matrix Platform.all DevEnv.all Optimization.all

def sorted (targets : List Target) : List Target := all.filter fun t => decide (t ∈ targets)

end Target

end BuildSteps
