import Jawn.Command.Files
import Jawn.Command.Options
import Jawn.Command.Report
import Jawn.Configuration
import Jawn.Journal

/-!
# Runs

A run reads its configuration, then its input, and prints the result of its stage. How the text of a
configuration is read is an argument of the run.
-/

namespace Jawn

/-- Where a run looks for its configuration. -/
inductive ConfigPlace where
  /-- The path that an option names. -/
  | explicit (path : String)
  /-- The directory of the run. -/
  | project (path : String)
  /-- The user's directory for configuration. -/
  | user (path : String)
  | nowhere
  deriving DecidableEq, Repr

/-- The path of the configuration in the directory of the run. -/
def projectConfig : String := "philly/config.toml"

namespace ConfigPlace

def path? : ConfigPlace → Option String
  | explicit path | project path | user path => some path
  | nowhere => none

/-- The first place that counts: a path that is named, whether it is there or not, or else the
first file that is there. -/
def choose (files : Files) (named userConfig : Option String) : ConfigPlace :=
  match named with
  | some path => .explicit path
  | none =>
    if files.has projectConfig then .project projectConfig
    else
      match userConfig with
      | some path => if files.has path then .user path else .nowhere
      | none => .nowhere

/-- The settings in a place. -/
def load (reader : ConfigReader) (files : Files) (place : ConfigPlace) : Except Failure Settings :=
  match place.path? with
  | none => .ok {}
  | some path =>
    if files.has path then
      match files.readText path with
      | .error fault => .error (.io fault.message)
      | .ok text =>
        (reader text).mapError fun reason => .config (ConfigFault.malformed reason).message
    else .error (.config (ConfigFault.missing path).message)

end ConfigPlace

/-- What a run depends on besides its options. -/
structure Surroundings where
  files : Files
  /-- The path of the user's configuration. -/
  userConfig : Option String

/-- The failure of a run whose source has a fault. -/
def Fault.failure (source : String) (fault : Fault) : Failure :=
  .source [fault.diagnostic] source

/-- A computation that prints. What it has printed stays printed if it fails. -/
abbrev Printing := ExceptT Failure (StateM String)

namespace Printing

def print (text : String) : Printing Unit :=
  modify (· ++ text)

/-- Goes on with a result, unless the source has a fault. -/
def check {α : Type} (source : String) (result : Except Fault α) : Printing α :=
  liftExcept (result.mapError (Fault.failure source))

end Printing

namespace Options

variable (o : Options) (reader : ConfigReader) (around : Surroundings)

/-- The settings of a run: those of its configuration, made strict if the options say so. -/
def settings : Except Failure Settings :=
  let place := ConfigPlace.choose around.files o.config around.userConfig
  (place.load reader around.files).map fun settings =>
    if o.strict then { settings with strict := true } else settings

/-- The text of the input. -/
def source : Except Failure String :=
  (around.files.readText o.input).mapError fun fault => .io fault.message

/-- Prints the result of the stage, from the settings and the source of the run. -/
def run : Printing Unit := do
  let settings ← liftExcept (o.settings reader around)
  let source ← liftExcept (o.source around)
  match o.stage with
  | some .print => .print source
  | some .lex =>
    let tokens ← .check source (tokenize source)
    .print (tokens.display ++ "\n")
  | some .parse =>
    let constructs ← .check source (Jawn.parse settings.strict source)
    .print ((programOf constructs).display ++ "\n")
  | none =>
    let output ← .check source (compile settings source)
    .print output

/-- How a run ends, and all that it has printed. -/
def result : Except Failure Unit × String :=
  (o.run reader around).run.run ""

end Options

namespace Journal

/-- A value that can be absent. -/
def displayOption {α : Type} (display : α → String) : Option α → String
  | none => "None"
  | some a => "Some(" ++ display a ++ ")"

def displayStage : Stage → String
  | .print => "Print"
  | .lex => "Lex"
  | .parse => "Parse"

/-- The options with their names. -/
def displayOptions (o : Options) : String :=
  "Args \x7b input: " ++ quoteText o.input ++
    ", stage: " ++ displayOption displayStage o.stage ++
    ", config: " ++ displayOption quoteText o.config ++
    ", strict: " ++ displayBool o.strict ++
    ", log_level: " ++ quoteText o.logLevel ++ " \x7d"

/-- The entries of the search for a configuration. -/
def configuring (place : ConfigPlace) (userConfig : Option String) : Journal :=
  match place with
  | .explicit path => [⟨.info, "Loading configuration from explicit path", [("path", path)]⟩]
  | .project path => [⟨.info, "Loading configuration from local path", [("path", path)]⟩]
  | .user path => [⟨.info, "Loading configuration from system path", [("path", path)]⟩]
  | .nowhere =>
    [match userConfig with
      | some path => ⟨.debug, "System configuration file not found", [("path", path)]⟩
      | none => ⟨.debug, "Could not determine platform-specific config directory", []⟩,
      ⟨.debug, "No configuration file found, using default configuration", []⟩]

/-- The entries of the stage that a run prints. -/
def printing (stage : Option Stage) (settings : Settings) (source : String) : Journal :=
  match stage with
  | some .print => []
  | some .lex => listingTokens source
  | some .parse => parsing settings.strict source
  | none => compiling settings source

/-- The entries of `Options.run`. -/
def running (o : Options) (reader : ConfigReader) (around : Surroundings) : Journal :=
  let place := ConfigPlace.choose around.files o.config around.userConfig
  let stage := displayOption displayStage o.stage
  [⟨.info, "Processing source", [("input_path", o.input), ("stage", stage)]⟩] ++
    configuring place around.userConfig ++
    (match o.settings reader around, o.source around with
      | .ok settings, .ok source => printing o.stage settings source
      | _, _ => []) ++
    match (o.result reader around).1 with
    | .ok _ => [⟨.info, "Source processed successfully", [("input_path", o.input)]⟩]
    | .error _ => []

end Journal

end Jawn
