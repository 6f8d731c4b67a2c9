import Firewall.Malformed
import Firewall.Notice
import Firewall.Program

/-!
Packet filters as engines. An engine carries out calls one at a time and may refuse any of them;
nothing else knows how to reach the filter.
-/

namespace Firewall

inductive EngineFault
  | rejected (text : String)
  | unsupported
  /-- The filter gave, or was given, a text that cannot be read. -/
  | unread (cause : ReadFault)

def EngineFault.message : EngineFault → String
  | .rejected text => text
  | .unsupported => ""
  | .unread cause => cause.message

namespace Engine

inductive Call
  | flush
  | configurePipe (p : Pipe)
  | configureQueue (q : Queue)
  | setEnabled (set : Int) (enabled : Bool)
  /-- Adds every rule of a program, in the order of installation. -/
  | install (p : Program)
deriving DecidableEq, Repr

end Engine

/-- An engine over states `σ`. A refused call may change the state, too. -/
structure Engine (σ : Type) where
  perform : Engine.Call → σ → Except EngineFault Unit × σ
  /-- The bandwidth of a pipe in bit/s, 0 if it is not limited; nothing if there is no such
  pipe. -/
  bandwidth : Int → σ → Except EngineFault (Option Nat) × σ
  /-- Records what is said between the calls. -/
  note : Notice → σ → σ

namespace Engine

def performAll {σ : Type} (e : Engine σ) : List Call → σ → Except EngineFault Unit × σ
  | [], s => (.ok (), s)
  | c :: rest, s =>
    match e.perform c s with
    | (.ok (), s) => performAll e rest s
    | (.error fault, s) => (.error fault, s)

theorem performAll_append {σ : Type} (e : Engine σ) (a b : List Call) (s : σ) :
    e.performAll (a ++ b) s =
      match e.performAll a s with
      | (.ok (), s) => e.performAll b s
      | (.error fault, s) => (.error fault, s) := by
  induction a generalizing s with
  | nil => rfl
  | cons c rest ih =>
    simp only [List.cons_append, performAll]
    split
    · exact ih _
    · rfl

def unavailable : Engine Unit where
  perform _ s := (.error .unsupported, s)
  bandwidth _ s := (.error .unsupported, s)
  note _ s := s

end Engine
end Firewall
