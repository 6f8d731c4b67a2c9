/-!
What a run says while it works: log records of four levels, and lines on the standard output and
the standard error.
-/

namespace Firewall

inductive Level
  | debug
  | info
  | warning
  | error
deriving DecidableEq, Repr

def Level.text : Level → String
  | .debug => "DEBUG"
  | .info => "INFO"
  | .warning => "WARNING"
  | .error => "ERROR"

inductive Notice
  | log (level : Level) (text : String)
  | printed (text : String)
  | told (text : String)
deriving DecidableEq, Repr

namespace Notice

/-- The log records among notices, each with its level. -/
def records (notices : List Notice) : List String :=
  notices.filterMap fun
    | .log level text => some (level.text ++ " " ++ text)
    | _ => none

def printedLines (notices : List Notice) : List String :=
  notices.filterMap fun
    | .printed text => some text
    | _ => none

/-- The lines that reach the standard error, where details are asked for or not. -/
def errorLines (details : Bool) (notices : List Notice) : List String :=
  notices.filterMap fun
    | .log .debug text => if details then some text else none
    | .log _ text => some text
    | .told text => some text
    | .printed _ => none

end Notice
end Firewall
