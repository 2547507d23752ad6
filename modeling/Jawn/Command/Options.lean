/-!
# Options of the command line

The arguments are read from left to right. A value is checked only when the next argument has been
recognised or all arguments are read, so a fault in a later argument can come before a fault in the
value in front of it.
-/

namespace Jawn

/-- A step of a run whose result is shown instead of JavaScript. -/
inductive Stage where
  | print
  | lex
  | parse
  deriving DecidableEq, Repr

namespace Stage

def display : Stage → String
  | print => "print"
  | lex => "lex"
  | parse => "parse"

def ofString? (text : String) : Option Stage :=
  if text = "print" then some print
  else if text = "lex" then some lex
  else if text = "parse" then some parse
  else none

end Stage

structure Options where
  input : String
  stage : Option Stage := none
  config : Option String := none
  strict : Bool := false
  logLevel : String := "warn"
  deriving DecidableEq, Repr

/-- Why the arguments give no options. -/
inductive UsageFault where
  | missingInput
  | invalidValue
  | unknownArgument
  /-- An option is given twice. -/
  | repeated
  /-- A flag is given a value. -/
  | unneededValue
  /-- Help is asked for. -/
  | help
  /-- The version is asked for. -/
  | version
  deriving DecidableEq, Repr

/-- A request for help or for the version is no failure. -/
def UsageFault.exitCode : UsageFault → Nat
  | help | version => 0
  | _ => 2

namespace Options

/-- The options that take a value. -/
inductive Key where
  | config
  | logLevel
  deriving DecidableEq, Repr

/-- A value that is not checked yet. -/
inductive Waiting where
  | nothing
  | input (text : String)
  | stage (text : String)
  /-- An option, with its value if that has been read. -/
  | option (key : Key) (value : Option String)
  deriving DecidableEq, Repr

/-- What has been read of the arguments. -/
structure Draft where
  input : Option String := none
  stage : Option Stage := none
  config : Option String := none
  strict : Bool := false
  logLevel : Option String := none
  waiting : Waiting := .nothing
  /-- The number of arguments that are no options. -/
  positionals : Nat := 0
  /-- Whether only such arguments can follow. -/
  onlyPositionals : Bool := false
  deriving DecidableEq, Repr

namespace Draft

/-- Gives an option its value, which it must not have yet. -/
def set (d : Draft) (key : Key) (value : String) : Except UsageFault Draft :=
  match key with
  | .config =>
    if d.config.isSome then .error .repeated else .ok { d with config := some value }
  | .logLevel =>
    if d.logLevel.isSome then .error .repeated else .ok { d with logLevel := some value }

/-- Checks the value that waits. -/
def settle (d : Draft) : Except UsageFault Draft :=
  let settled := { d with waiting := .nothing }
  match d.waiting with
  | .nothing => .ok settled
  | .input text => .ok { settled with input := some text }
  | .stage text =>
    match Stage.ofString? text with
    | some stage => .ok { settled with stage := some stage }
    | none => .error .invalidValue
  | .option _ none => .error .invalidValue
  | .option key (some value) => settled.set key value

/-- An option and the value that is attached to it. -/
def option (d : Draft) (key : Key) (value : Option String) : Except UsageFault Draft := do
  let d ← d.settle
  match value with
  | some value => d.set key value
  | none => return { d with waiting := .option key none }

def positional (d : Draft) (text : String) : Except UsageFault Draft := do
  match d.positionals with
  | 0 => return { ← d.settle with waiting := .input text, positionals := 1 }
  | 1 => return { ← d.settle with waiting := .stage text, positionals := 2 }
  | _ => .error .unknownArgument

/-- A flag without a value. -/
def flag (d : Draft) (effect : Draft → Except UsageFault Draft) (value : Option String) :
    Except UsageFault Draft :=
  match value with
  | some _ => .error .unneededValue
  | none => d.settle >>= effect

def setStrict (d : Draft) : Except UsageFault Draft :=
  if d.strict then .error .repeated else .ok { d with strict := true }

/-- An argument that starts with two hyphens, by its name and the value behind an equals sign. -/
def long (d : Draft) (name : String) (value : Option String) : Except UsageFault Draft :=
  if name = "config" then d.option .config value
  else if name = "log-level" then d.option .logLevel value
  else if name = "strict" then d.flag setStrict value
  else if name = "help" then d.flag (fun _ => .error .help) value
  else if name = "version" then d.flag (fun _ => .error .version) value
  else .error .unknownArgument

/-- An argument that starts with one hyphen, by its letter and what follows. -/
def short (d : Draft) (letter : Char) (rest : List Char) : Except UsageFault Draft :=
  if letter = 'c' then
    match rest with
    | [] => d.option .config none
    | '=' :: value => d.option .config (some (String.ofList value))
    | value => d.option .config (some (String.ofList value))
  else if letter = 'h' then d.flag (fun _ => .error .help) none
  else if letter = 'V' then d.flag (fun _ => .error .version) none
  else .error .unknownArgument

/-- An argument that is the value of an option or stands for itself. -/
def plain (d : Draft) (text : String) : Except UsageFault Draft :=
  match d.waiting with
  | .option key none => .ok { d with waiting := .option key (some text) }
  | _ => d.positional text

/-- Reads one argument. -/
def read (d : Draft) (argument : String) : Except UsageFault Draft :=
  if d.onlyPositionals then d.positional argument
  else
    match argument.toList with
    | ['-', '-'] => .ok { d with onlyPositionals := true }
    | '-' :: '-' :: rest =>
      let name := String.ofList (rest.takeWhile (· != '='))
      match rest.dropWhile (· != '=') with
      | [] => d.long name none
      | _ :: value => d.long name (some (String.ofList value))
    | '-' :: letter :: rest => d.short letter rest
    | _ => d.plain argument

/-- The options, once all arguments are read. -/
def finish (d : Draft) : Except UsageFault Options := do
  let d ← d.settle
  match d.input with
  | none => .error .missingInput
  | some input =>
    return {
      input := input
      stage := d.stage
      config := d.config
      strict := d.strict
      logLevel := d.logLevel.getD "warn" }

end Draft

/-- The options that the arguments give. -/
def parse (arguments : List String) : Except UsageFault Options := do
  (← arguments.foldlM Draft.read {}).finish

end Options

end Jawn
