import Jawn.Configuration
import Jawn.Toml.Document

/-!
# Settings in a TOML document

The settings are in the sections `parser` and `output`. Everything in them is optional, and keys
that mean nothing here are passed over.
-/

namespace Jawn.Toml

/-- What is wrong with a key whose value is of the wrong kind. -/
def unfit (key : String) : String :=
  s!"the value of {key} does not fit"

/-- A switch, which is off if it is not given. -/
def switch (key : String) : Option Value → Except String Bool
  | none => .ok false
  | some (.boolean b) => .ok b
  | some _ => .error (unfit key)

/-- The one switch of a section. An array stands for the values of the section in order, and a
moment for a section that leaves them all out. -/
def sectionSwitch (root : Table) (name key : String) : Except String Bool :=
  match root.lookup name with
  | none => .ok false
  | some (.table _ entries) => switch key (entries.lookup key)
  | some (.array _ items) => switch key items.head?
  | some (.moment _) => .ok false
  | some _ => .error (unfit name)

/-- The settings in the text of a document. -/
def settings : ConfigReader := fun text =>
  match parse text with
  | .error fault => .error fault.message
  | .ok root => do
    let strict ← sectionSwitch root "parser" "strict"
    let finalNewline ← sectionSwitch root "output" "final_newline"
    return ⟨strict, finalNewline⟩

end Jawn.Toml
