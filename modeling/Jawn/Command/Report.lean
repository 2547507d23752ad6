import Jawn.Diagnostic

/-!
# Reports

A run fails for a reason outside the source or because of faults in it. Each fault in the source
has a report of its own.
-/

namespace Jawn

/-- Why a run failed. -/
inductive Failure where
  | io (cause : String)
  | config (message : String)
  | source (diagnostics : List Diagnostic) (text : String)
  deriving DecidableEq, Repr

def Failure.display : Failure → String
  | io cause => s!"I/O error: {cause}"
  | config message => s!"Configuration error: {message}"
  | source diagnostics _ => Diagnostic.displayAll diagnostics

structure Report where
  message : String
  code : Option String
  help : Option String
  /-- The error behind the one reported. -/
  cause : Option String
  /-- The source to which the labels belong. -/
  source : Option String
  labels : List Label
  deriving DecidableEq, Repr

namespace Report

def ofDiagnostic (source : String) (d : Diagnostic) : Report where
  message := d.message
  code := d.code.map Code.display
  help := d.help
  cause := none
  source := some source
  labels := d.labels

/-- A report of a failure outside the source. -/
def plain (message code : String) (help cause : Option String) : Report where
  message := message
  code := some code
  help := help
  cause := cause
  source := none
  labels := []

end Report

/-- The reports of a failure. -/
def Failure.reports (f : Failure) : List Report :=
  match f with
  | io cause => [Report.plain f.display "philly::io" none (some cause)]
  | config _ =>
    [Report.plain f.display "philly::config"
      (some "sections are [parser] and [output]; pass --config to pick another file") none]
  | source diagnostics text => diagnostics.map (Report.ofDiagnostic text)

end Jawn
