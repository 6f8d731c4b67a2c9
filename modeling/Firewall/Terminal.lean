import Firewall.Notice
import Firewall.Text.Quoted

/-!
Commands that are run on the host. What carries them out is a runner; a terminal keeps the commands
that were handed to it, and what was said in between.
-/

namespace Firewall

structure CommandResult where
  status : Int := 0
  output : String := ""
  complaint : String := ""
deriving DecidableEq, Repr

/-- A refusal of the operating system: its number if it has one, its reason, and the path it is
about. -/
structure SystemFault where
  number : Option Int := none
  reason : String
  path : Option String := none
deriving DecidableEq, Repr

namespace SystemFault

def message (f : SystemFault) : String :=
  let path := match f.path with
    | none => ""
    | some p => ": " ++ Text.Quoted.quote p
  match f.number with
  | none => f.reason
  | some n => "[Errno " ++ toString n ++ "] " ++ f.reason ++ path

/-- The reason alone, if there is a numbered one. -/
def brief (f : SystemFault) : String :=
  if f.number.isSome && !f.reason.isEmpty then f.reason else f.message

end SystemFault

/-- Carries out commands in a world `τ`. -/
abbrev Runner (τ : Type) := List String → τ → Except SystemFault CommandResult × τ

structure Terminal (τ : Type) where
  world : τ
  commands : List (List String) := []
  notices : List Notice := []

namespace Terminal

variable {τ : Type}

def note (n : Notice) (t : Terminal τ) : Terminal τ := { t with notices := t.notices ++ [n] }

def notes (ns : List Notice) (t : Terminal τ) : Terminal τ := { t with notices := t.notices ++ ns }

def log (level : Level) (text : String) (t : Terminal τ) : Terminal τ := t.note (.log level text)

def run (runner : Runner τ) (command : List String) (t : Terminal τ) :
    Except SystemFault CommandResult × Terminal τ :=
  let (result, world) := runner command t.world
  (result, { t with world, commands := t.commands ++ [command] })

end Terminal
end Firewall
