import Firewall.Notice
import Firewall.Rule

/-!
Errors and warnings collected over a run, with the mark that a run is to be abandoned. A message
about a rule begins with the rule's label.
-/

namespace Firewall

structure Diagnostics where
  errors : List String := []
  warnings : List String := []
  aborted : Bool := false
  notices : List Notice := []
deriving DecidableEq, Repr

namespace Diagnostics

/-- A message about the rule with a label. -/
def about (label text : String) : String := "Rule " ++ label ++ ": " ++ text

def error (d : Diagnostics) (text : String) : Diagnostics :=
  { d with errors := d.errors ++ [text], notices := d.notices ++ [.log .error text] }

def warning (d : Diagnostics) (text : String) : Diagnostics :=
  { d with warnings := d.warnings ++ [text], notices := d.notices ++ [.log .warning text] }

def log (d : Diagnostics) (level : Level) (text : String) : Diagnostics :=
  { d with notices := d.notices ++ [.log level text] }

def abort (d : Diagnostics) : Diagnostics := { d with aborted := true }

def abortFor (d : Diagnostics) (label text : String) : Diagnostics :=
  d.abort.error (about label text)

end Diagnostics
end Firewall
