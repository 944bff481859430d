import BuildSteps.Manifest

/-!
# User settings

Where a user keeps the generators, and how much is logged. Every value may be left out; sections that
hold none of theirs are told apart from sections that are not there. How much is logged is what the
command line says, else what the settings say, else what the logger itself decides.
-/

namespace BuildSteps

/-! ## 1. Settings -/

structure ToolSettings where
  qtDir : Option Path
  protoc : Option Path
  protocDebug : Option Path
  deriving DecidableEq, Repr

structure LogSettings where
  level : Option String
  deriving DecidableEq, Repr

structure Settings where
  tools : Option ToolSettings
  logging : Option LogSettings
  deriving DecidableEq, Repr

namespace Settings

open Toml

def empty : Settings := ⟨none, none⟩

def toolSchema : Schema where
  name := "ToolsConfig"
  fields := [("qt_dir", must Value.asPath), ("protoc", must Value.asPath),
    ("protoc_debug", must Value.asPath)]
  isStrict := true

def asTools (v : Value) : Decoded ToolSettings := do
  let fields ← toolSchema.fieldsOf v
  return {
    qtDir := ← fields.optional "qt_dir" Value.asPath
    protoc := ← fields.optional "protoc" Value.asPath
    protocDebug := ← fields.optional "protoc_debug" Value.asPath }

def logSchema : Schema where
  name := "LoggingConfig"
  fields := [("level", must Value.asText)]
  isStrict := true

def asLogging (v : Value) : Decoded LogSettings := do
  let fields ← logSchema.fieldsOf v
  return { level := ← fields.optional "level" Value.asText }

def schema : Schema where
  name := "GlobalConfig"
  fields := [("tools", must asTools), ("logging", must asLogging)]
  isStrict := true

def asSettings (v : Value) : Decoded Settings := do
  let fields ← schema.fieldsOf v
  return {
    tools := ← fields.optional "tools" asTools
    logging := ← fields.optional "logging" asLogging }

def qtDir (s : Settings) : Option Path := s.tools.bind (·.qtDir)

def protoc (s : Settings) : Option Path := s.tools.bind (·.protoc)

def protocDebug (s : Settings) : Option Path := s.tools.bind (·.protocDebug)

def logLevel (s : Settings) : Option String := s.logging.bind (·.level)

def alterTools (s : Settings) (change : ToolSettings → ToolSettings) : Settings :=
  { s with tools := some (change (s.tools.getD ⟨none, none, none⟩)) }

def setLogLevel (s : Settings) (level : Option String) : Settings :=
  { s with logging := some ⟨level⟩ }

/-- The names of log levels, from the most to the least that is logged. -/
def logLevelNames : List String := ["trace", "debug", "info", "warn", "error"]

def checkLogLevel (field value : String) : Except ConfigError Unit :=
  if logLevelNames.contains (Text.lowercase value) then .ok ()
  else .error (.badLogLevel field value)

def validate (s : Settings) : Except ConfigError Unit :=
  match s.logLevel with
  | none => .ok ()
  | some level => checkLogLevel "logging.level" level

def load (fs : FileSystem) (file : Path) : Except ConfigError Settings :=
  match readDocument fs file asSettings with
  | .error e => .error e
  | .ok s =>
    match s.validate with
    | .error e => .error e
    | .ok () => .ok s

/-- Settings with the sections of others in place of their own where the others have them. -/
def merge (s other : Settings) : Settings where
  tools := other.tools <|> s.tools
  logging := other.logging <|> s.logging

def folderIn (home : Path) : Path := home.join ⟨".stepgen"⟩

def fileIn (home : Path) : Path := (folderIn home).join ⟨"config.toml"⟩

end Settings

/-! ## 2. Log levels -/

namespace LogLevel

structure Unknown where
  text : String
  deriving DecidableEq, Repr

def Unknown.message (e : Unknown) : String :=
  "invalid log level '" ++ e.text ++ "', expected one of " ++
    Text.join ", " Settings.logLevelNames

def parse (text : String) : Except Unknown String :=
  let lower := Text.lowercase text
  if Settings.logLevelNames.contains lower then .ok lower else .error ⟨lower⟩

/-- The level that is chosen by a name on the command line, by the switches for more and for less,
or by the settings, in this order. -/
def choose (flag : Option String) (verbose quiet : Bool) (configured : Option String) :
    Except Unknown (Option String) :=
  match flag with
  | some level => (parse level).map some
  | none =>
    if verbose then .ok (some "debug")
    else if quiet then .ok (some "error")
    else
      match configured with
      | some level => (parse level).map some
      | none => .ok none

end LogLevel

end BuildSteps
