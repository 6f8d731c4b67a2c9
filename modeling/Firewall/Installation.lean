import Firewall.Engine
import Firewall.Policy

/-!
Installation of a policy through an engine. Sets that can be switched stay off while the rules go
in, and the engine adds the default-deny set before all other rules. If the filter refuses
anything, everything is flushed again: a partial program is never left behind.
-/

namespace Firewall.Installation

open Engine (Call)

/-- The calls that replace the running program by the one of a policy. -/
def calls (p : Policy) : List Call :=
  let program := p.program
  [.flush] ++ program.pipes.map .configurePipe ++ program.queues.map .configureQueue
    ++ program.setStates.map (fun s => .setEnabled s.set false)
    ++ [.install program]
    ++ (program.setStates.filter (·.enabled)).map (fun s => .setEnabled s.set true)

/-- The outcome of an installation: its answer, the errors that were reported, and the refusals
that an operator is shown at the end. -/
structure Outcome (σ : Type) where
  answer : Except EngineFault Unit
  state : σ
  errors : List String := []
  refusals : List String := []

def report {σ : Type} (e : Engine σ) (text : String) (s : σ) : σ := e.note (.log .error text) s

/-- Installs a policy. Only a refusal of the filter is answered by a flush; the answer of that
flush is not the answer of the installation. -/
def install {σ : Type} (e : Engine σ) (p : Policy) (s : σ) : Outcome σ :=
  match e.performAll (calls p) s with
  | (.ok (), s) => { answer := .ok (), state := s }
  | (.error (.rejected text), s) =>
    let failed := "Installation failed, flushing: " ++ text
    match e.perform .flush (report e failed s) with
    | (.ok (), s) =>
      { answer := .error (.rejected text), state := s, errors := [failed], refusals := [text] }
    | (.error (.rejected again), s) =>
      let failedAgain := "Flush after failed installation failed: " ++ again
      { answer := .error (.rejected text), state := report e failedAgain s,
        errors := [failed, failedAgain], refusals := [text] }
    | (.error fault, s) =>
      { answer := .error fault, state := s, errors := [failed], refusals := [text] }
  | (.error fault, s) => { answer := .error fault, state := s }

end Firewall.Installation
