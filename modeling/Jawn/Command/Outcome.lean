import Jawn.Command.Run

/-!
# Outcomes

What the command does with its arguments: what it prints, which entries of the journal it shows,
and its exit code.
-/

namespace Jawn

/-- The least grave level that is shown, by its name; under `off` no level is. -/
def threshold? (name : String) : Option (Option Level) :=
  [("off", none), ("error", some Level.error), ("warn", some .warn), ("info", some .info),
    ("debug", some .debug), ("trace", some .trace)].lookup (name.map Char.toLower)

/-- The entries down to a level. -/
def Journal.upTo (threshold : Option Level) (journal : Journal) : Journal :=
  match threshold with
  | none => []
  | some level => journal.filter fun entry => entry.level.rank ≤ level.rank

structure Outcome where
  exitCode : Nat
  output : String := ""
  /-- The entries that are shown. -/
  journal : Journal := []
  /-- What is wrong with the arguments. -/
  usage : Option UsageFault := none
  deriving DecidableEq, Repr

/-- Whether nothing is written beside the output. -/
def Outcome.isQuiet (o : Outcome) : Bool :=
  o.journal.isEmpty && (o.usage.isNone || o.exitCode == 0)

/-- The name and version of the command. -/
def versionText : String := "philly-cli 0.1.0\n"

/-- How the command is used. -/
def helpText : String :=
  "Usage: philly [OPTIONS] <INPUT> [STAGE]\n\n" ++
  "Arguments:\n" ++
  "  <INPUT>  Path to the input file\n" ++
  "  [STAGE]  Stop after this stage and print its result [print, lex, parse]\n\n" ++
  "Options:\n" ++
  "  -c, --config <CONFIG>        Path to configuration file (TOML)\n" ++
  "      --strict                 Check bracket balance and condition continuations\n" ++
  "      --log-level <LOG_LEVEL>  Log level (off, error, warn, info, debug, trace)\n" ++
  "  -h, --help                   Print help\n" ++
  "  -V, --version                Print version\n"

/-- The outcome of arguments that give no options. -/
def UsageFault.outcome (fault : UsageFault) : Outcome where
  exitCode := fault.exitCode
  output := match fault with
    | .help => helpText
    | .version => versionText
    | _ => ""
  usage := some fault

/-- All entries of a command, whether they are shown or not. -/
def Journal.executing (o : Options) (reader : ConfigReader) (around : Surroundings) : Journal :=
  (if (threshold? o.logLevel).isNone then
    [⟨.warn, "Unknown log level, falling back to warn", [("level", o.logLevel)]⟩] else []) ++
    [⟨.debug, "Parsed arguments", [("args", Journal.displayOptions o)]⟩] ++
    Journal.running o reader around ++
    match (o.result reader around).1 with
    | .ok _ => [⟨.info, "Done", [("input_path", o.input)]⟩]
    | .error failure => failure.reports.map fun report => ⟨.error, report.message, []⟩

/-- Runs the command. A level that has no meaning counts as the level for warnings. -/
def Options.execute (o : Options) (reader : ConfigReader) (around : Surroundings) : Outcome :=
  let shown := (Journal.executing o reader around).upTo ((threshold? o.logLevel).getD (some .warn))
  match o.result reader around with
  | (.ok _, output) => { exitCode := 0, output := output, journal := shown }
  | (.error _, output) => { exitCode := 1, output := output, journal := shown }

/-- The outcome of the command with its arguments. -/
def execute (reader : ConfigReader) (arguments : List String) (around : Surroundings) : Outcome :=
  match Options.parse arguments with
  | .error fault => fault.outcome
  | .ok options => options.execute reader around

end Jawn
