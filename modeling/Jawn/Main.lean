import Jawn.Command.Outcome
import Jawn.Toml.Settings

/-!
# The command

Asks the system about the files of a run, and prints the outcome of the run. Configurations are TOML
documents.
-/

namespace Jawn

/-- The text of an error of the system, with its number. -/
def systemReason : IO.Error → String
  | .alreadyExists _ code text | .otherError code text | .resourceBusy code text
  | .resourceVanished code text | .unsupportedOperation code text | .hardwareFault code text
  | .unsatisfiedConstraints code text | .illegalOperation code text | .protocolError code text
  | .timeExpired code text | .interrupted _ code text | .noFileOrDirectory _ code text
  | .invalidArgument _ code text | .permissionDenied _ code text | .resourceExhausted _ code text
  | .inappropriateType _ code text | .noSuchThing _ code text => s!"{text} (os error {code})"
  | .unexpectedEof => "unexpected end of file"
  | .userError text => text

/-- Whether anything is found at a path. -/
def find (path : String) : IO Bool := do
  match ← (IO.FS.realPath path).toBaseIO with
  | .ok _ => return true
  | .error _ => return false

/-- What is read at a path. -/
def readContent (path : String) : IO (Except String ByteArray) := do
  let content : IO ByteArray := do (← IO.FS.Handle.mk path .read).readBinToEnd
  return (← content.toBaseIO).mapError systemReason

/-- The user's configuration, from the environment. -/
def findUserConfig : IO (Option String) := do
  match ← IO.getEnv "XDG_CONFIG_HOME" with
  | some base => if base.toList.head? == some '/' then return some (base ++ "/philly/config.toml")
  | none => pure ()
  return (← IO.getEnv "HOME").map (· ++ "/.config/philly/config.toml")

/-- The files that a run with these arguments can ask for. -/
def surroundings (arguments : List String) : IO Surroundings := do
  let userConfig ← findUserConfig
  let named := match Options.parse arguments with
    | .ok options => options.input :: options.config.toList
    | .error _ => []
  let paths := named ++ projectConfig :: userConfig.toList
  let found ← paths.mapM fun path => return (path, ← find path)
  let contents ← paths.mapM fun path => return (path, ← readContent path)
  let files : Files := {
    has := fun path => (found.lookup path).getD false
    read := fun path => (contents.lookup path).getD (.error "not looked at") }
  return ⟨files, userConfig⟩

/-- An entry on one line. -/
def Entry.display (e : Entry) : String :=
  s!"[{e.level.display}] {e.message}" ++
    String.join (e.values.map fun (name, value) => s!" {name}={value}")

end Jawn

def main (arguments : List String) : IO UInt32 := do
  let outcome := Jawn.execute Jawn.Toml.settings arguments (← Jawn.surroundings arguments)
  for entry in outcome.journal do
    IO.eprintln entry.display
  if outcome.exitCode == 2 then
    IO.eprintln Jawn.helpText
  (← IO.getStdout).putStr outcome.output
  return outcome.exitCode.toUInt32
