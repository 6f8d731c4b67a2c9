import Firewall.Engine
import Firewall.Ipfw.PipeListing
import Firewall.Ipfw.Words
import Firewall.Terminal
import Firewall.Text.ShellWord

/-!
The filter behind the `ipfw` command. In a dry run the commands that would change the filter are
printed instead of run; queries still run.
-/

namespace Firewall.Ipfw

open Text

def defaultExecutable : String := "/sbin/ipfw"

structure Access where
  executable : String := defaultExecutable
  dryRun : Bool := false
deriving DecidableEq, Repr

variable {τ : Type}

def commandsOf : Engine.Call → List (List String)
  | .flush => flushCommands
  | .configurePipe p => [pipeWords p]
  | .configureQueue q => [queueWords q]
  | .setEnabled set enabled => [setWords set enabled]
  | .install p => p.installOrder.map ruleWords

def refusal (command : List String) (r : CommandResult) : String :=
  let complaint := strip r.complaint
  if complaint.isEmpty then
    ShellWord.join command ++ " exited with status " ++ toString r.status
  else complaint

/-- Runs the command with the given words and gives its output. -/
def execute (runner : Runner τ) (a : Access) (words : List String) (t : Terminal τ) :
    Except EngineFault String × Terminal τ :=
  let command := a.executable :: words
  match (t.log .debug ("Running " ++ ShellWord.join command)).run runner command with
  | (.error fault, t) => (.error (.rejected (a.executable ++ ": " ++ fault.brief)), t)
  | (.ok r, t) =>
    if r.status = 0 then (.ok r.output, t) else (.error (.rejected (refusal command r)), t)

def modify (runner : Runner τ) (a : Access) (words : List String) (t : Terminal τ) :
    Except EngineFault Unit × Terminal τ :=
  if a.dryRun then (.ok (), t.note (.printed (ShellWord.join ("ipfw" :: "-q" :: words))))
  else match execute runner a ("-q" :: words) t with
    | (.ok _, t) => (.ok (), t)
    | (.error fault, t) => (.error fault, t)

def modifyAll (runner : Runner τ) (a : Access) :
    List (List String) → Terminal τ → Except EngineFault Unit × Terminal τ
  | [], t => (.ok (), t)
  | words :: rest, t =>
    match modify runner a words t with
    | (.ok (), t) => modifyAll runner a rest t
    | (.error fault, t) => (.error fault, t)

def bandwidth (runner : Runner τ) (a : Access) (id : Int) (t : Terminal τ) :
    Except EngineFault (Option Nat) × Terminal τ :=
  match execute runner a ["pipe", "show"] t with
  | (.error fault, t) => (.error fault, t)
  | (.ok listing, t) => ((bandwidthOf listing id).mapError .unread, t)

def engine (runner : Runner τ) (a : Access) : Engine (Terminal τ) where
  perform c t := modifyAll runner a (commandsOf c) t
  bandwidth := bandwidth runner a
  note := Terminal.note

end Firewall.Ipfw
