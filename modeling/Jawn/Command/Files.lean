/-!
# Files

What a run can ask about a path: whether anything is found there, and what is read there. The two
answers do not depend on each other. A file that may not be read is found, while one in a directory
that may not be searched is not, though reading fails for the same reason.
-/

namespace Jawn

/-- Why a file cannot be read as text. -/
inductive ReadFault where
  /-- The system does not give its content, for this reason. -/
  | refused (reason : String)
  | notText
  deriving DecidableEq, Repr

def ReadFault.message : ReadFault → String
  | refused reason => reason
  | notText => "stream did not contain valid UTF-8"

/-- A file system that does not change while it is asked. -/
structure Files where
  /-- Whether anything is found at a path. -/
  has : String → Bool
  /-- The content at a path, or the reason why there is none to read. -/
  read : String → Except String ByteArray

/-- The text of a file. -/
def Files.readText (files : Files) (path : String) : Except ReadFault String :=
  match files.read path with
  | .error reason => .error (.refused reason)
  | .ok content =>
    match String.fromUTF8? content with
    | some text => .ok text
    | none => .error .notText

end Jawn
