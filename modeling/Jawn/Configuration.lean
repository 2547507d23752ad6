import Jawn.Compile

/-!
# Configuration

A configuration file is a text with settings in it. How the text is read is left open here: a run
takes the reader as an argument.
-/

namespace Jawn

/-- Reads the text of a configuration file: the settings in it, or what is wrong with it. -/
abbrev ConfigReader := String → Except String Settings

/-- Why there is no configuration. -/
inductive ConfigFault where
  | missing (path : String)
  | malformed (reason : String)
  deriving DecidableEq, Repr

def ConfigFault.message : ConfigFault → String
  | missing path => s!"Missing configuration file: {path}"
  | malformed reason => s!"Failed to parse TOML configuration: {reason}"

end Jawn
