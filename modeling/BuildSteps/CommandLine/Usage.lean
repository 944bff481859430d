import BuildSteps.Workspace

/-!
# Command line

What the words of a command line ask for. They are read from left to right: options of the program, the
name of a command, options of the command. An option is given at most once on either side of the
command's name; a request for help or for the version is granted as soon as it is read.
-/

namespace BuildSteps.CommandLine

inductive Command where
  | generate | scan
  deriving DecidableEq, Repr

def Command.name : Command → String
  | generate => "generate"
  | scan => "scan"

def Command.ofWord? (word : String) : Option Command :=
  if word = "generate" ∨ word = "g" then some .generate
  else if word = "scan" ∨ word = "s" then some .scan
  else none

inductive Switch where
  | verbose | quiet | logLevel | manifest | project | json | relative | help | version
  deriving DecidableEq, Repr

namespace Switch

def takesValue : Switch → Bool
  | logLevel | manifest | project => true
  | _ => false

/-- Whether an option may be given before (`none`) or after the name of a command. -/
def isAllowed (command : Option Command) : Switch → Bool
  | verbose | quiet | logLevel | help | version => true
  | manifest | project | json => command.isSome
  | relative => command == some .generate

def ofLong? (name : String) : Option Switch :=
  match name with
  | "verbose" => some verbose
  | "quiet" => some quiet
  | "log-level" => some logLevel
  | "manifest" => some manifest
  | "project" => some project
  | "json" => some json
  | "relative" => some relative
  | "help" => some help
  | "version" => some version
  | _ => none

def ofShort? (c : Char) : Option Switch :=
  match c with
  | 'v' => some verbose
  | 'q' => some quiet
  | 'm' => some manifest
  | 'p' => some project
  | 'h' => some help
  | 'V' => some version
  | _ => none

end Switch

structure Given where
  switches : List Switch
  values : List (Switch × String)
  deriving DecidableEq, Repr

namespace Given

def none : Given := ⟨[], []⟩

def has (g : Given) (s : Switch) : Bool := g.switches.contains s

def value? (g : Given) (s : Switch) : Option String :=
  (g.values.find? (·.1 == s)).map (·.2)

def add? (g : Given) (s : Switch) : Option Given :=
  if g.has s then .none else some { g with switches := s :: g.switches }

def addValue? (g : Given) (s : Switch) (value : String) : Option Given :=
  if s = .manifest ∧ value.isEmpty then .none
  else (g.add? s).map fun g => { g with values := (s, value) :: g.values }

def isContradictory (g : Given) : Bool := g.has .verbose && g.has .quiet

end Given

structure Invocation where
  command : Command
  manifest : Option Path
  project : Option String
  json : Bool
  relative : Bool
  verbose : Bool
  quiet : Bool
  logLevel : Option String
  deriving DecidableEq, Repr

inductive Request where
  | run (invocation : Invocation)
  | help
  /-- The version of the program or of one of its commands. -/
  | version (command : Option Command)
  /-- The words make no sense. -/
  | misuse
  deriving DecidableEq, Repr

/-- How reading a group of letters after one hyphen goes on. -/
inductive Letters where
  | done (given : Given)
  /-- The last letter needs the next word as its value. -/
  | needsValue (s : Switch) (given : Given)
  | stop (request : Request)

def readLetters (command : Option Command) (g : Given) : List Char → Letters
  | [] => .done g
  | c :: rest =>
    match Switch.ofShort? c with
    | none => .stop .misuse
    | some s =>
      if !s.isAllowed command then .stop .misuse
      else if s = .help then .stop .help
      else if s = .version then .stop (.version command)
      else if s.takesValue then
        match rest with
        | [] => .needsValue s g
        | '=' :: value =>
          match g.addValue? s (String.ofList value) with
          | some g => .done g
          | none => .stop .misuse
        | value =>
          match g.addValue? s (String.ofList value) with
          | some g => .done g
          | none => .stop .misuse
      else
        match g.add? s with
        | some g => readLetters command g rest
        | none => .stop .misuse

def readLong (command : Option Command) (g : Given) (word : List Char) : Letters :=
  let name := word.takeWhile (· != '=')
  let value? := match word.drop name.length with
    | [] => none
    | _ :: value => some (String.ofList value)
  match Switch.ofLong? (String.ofList name) with
  | none => .stop .misuse
  | some s =>
    if !s.isAllowed command then .stop .misuse
    else
      match value?, s.takesValue with
      | some value, true =>
        match g.addValue? s value with
        | some g => .done g
        | none => .stop .misuse
      | some _, false => .stop .misuse
      | none, true => .needsValue s g
      | none, false =>
        if s = .help then .stop .help
        else if s = .version then .stop (.version command)
        else
          match g.add? s with
          | some g => .done g
          | none => .stop .misuse

def isOption (word : String) : Bool :=
  match word.toList with
  | '-' :: _ :: _ => true
  | _ => false

/-- Whether JSON is asked for by an option or by a variable, which must be `true` or `false`. -/
def wantsJson? (env : Environment) (g : Given) : Option Bool :=
  if g.has .json then some true
  else
    match env.get? "STEPGEN_JSON" with
    | none | some "false" => some false
    | some "true" => some true
    | some _ => none

def finish (env : Environment) (program : Given) (command : Command) (g : Given) : Request :=
  match wantsJson? env g with
  | none => .misuse
  | some json =>
    if g.isContradictory || program.isContradictory then .misuse
    else
      .run {
        command := command
        manifest := (g.value? .manifest).map Path.mk
        project := g.value? .project
        json := json
        relative := g.has .relative
        verbose := program.has .verbose || g.has .verbose
        quiet := program.has .quiet || g.has .quiet
        logLevel := g.value? .logLevel <|> program.value? .logLevel }

def readCommand (env : Environment) (program : Given) (command : Command) :
    Given → List String → Request
  | g, [] => finish env program command g
  | g, word :: rest =>
    if word = "--" then
      if rest.isEmpty then finish env program command g else .misuse
    else if !isOption word then .misuse
    else
      let letters : Letters :=
        match word.toList with
        | '-' :: '-' :: name => readLong (some command) g name
        | _ => readLetters (some command) g (word.toList.drop 1)
      match letters, rest with
      | .done g, rest => readCommand env program command g rest
      | .stop request, _ => request
      | .needsValue _ _, [] => .misuse
      | .needsValue s g, value :: rest =>
        if isOption value then .misuse
        else
          match g.addValue? s value with
          | some g => readCommand env program command g rest
          | none => .misuse

def readHelp : List String → Request
  | [] => .help
  | [word] => if word = "help" ∨ (Command.ofWord? word).isSome then .help else .misuse
  | _ => .misuse

def readProgram (env : Environment) : Given → List String → Request
  | _, [] => .misuse
  | g, word :: rest =>
    if !isOption word then
      match Command.ofWord? word with
      | some command => readCommand env g command .none rest
      | none => if word = "help" then readHelp rest else .misuse
    else
      let letters : Letters :=
        match word.toList with
        | '-' :: '-' :: [] => .stop .misuse
        | '-' :: '-' :: name => readLong none g name
        | _ => readLetters none g (word.toList.drop 1)
      match letters, rest with
      | .done g, rest => readProgram env g rest
      | .stop request, _ => request
      | .needsValue _ _, [] => .misuse
      | .needsValue s g, value :: rest =>
        if isOption value then .misuse
        else
          match g.addValue? s value with
          | some g => readProgram env g rest
          | none => .misuse

def Usage.program : String := "stepgen"

def Usage.version (command : Option Command) : String :=
  match command with
  | none => Usage.program ++ " 0.1.0"
  | some command => Usage.program ++ "-" ++ command.name ++ " 0.1.0"

def Usage.hint : String :=
  "error: the command line was not understood\n\nFor more information, try '--help'.\n"

def Usage.help : String :=
  "Custom build step generator for Qt and Protocol Buffers code generators.\n" ++
    "\n" ++
    "Usage: stepgen [OPTIONS] <COMMAND>\n" ++
    "\n" ++
    "Commands:\n" ++
    "  generate, g  Generate custom build steps for the solution\n" ++
    "  scan, s      Show which files each code generator would process\n" ++
    "  help         Print this message\n" ++
    "\n" ++
    "Options of the commands:\n" ++
    "  -m, --manifest <FILE>  Path to stepgen.toml\n" ++
    "  -p, --project <NAME>   Only this project\n" ++
    "      --json             JSON output\n" ++
    "      --relative         Paths relative to each project directory (generate only)\n" ++
    "\n" ++
    "Options:\n" ++
    "  -v, --verbose            Verbose logging (debug level)\n" ++
    "  -q, --quiet              Quiet output (errors only)\n" ++
    "      --log-level <LEVEL>  Log level (trace, debug, info, warn, error)\n" ++
    "  -h, --help               Print help\n" ++
    "  -V, --version            Print version\n"

def read (env : Environment) (words : List String) : Request := readProgram env .none words

end BuildSteps.CommandLine
