import Firewall.Numbering

/-!
Compiled programs: rules in the order of evaluation, with the pipes and queues they refer to and
the sets that are switched on at the end.
-/

namespace Firewall

structure Pipe where
  id : Int
  bandwidth : Option String := none
  slots : Option Int := none
  delay : Option Int := none
deriving DecidableEq, Repr

/-- A queue with a share of the pipe that it is nested in. -/
structure Queue where
  id : Int
  pipe : Int
  weight : Int
deriving DecidableEq, Repr

structure InterfaceShaping where
  index : Int
  name : String
  inbound : Pipe
  outbound : Pipe
  high : Queue
  medium : Queue
  low : Queue
deriving DecidableEq, Repr

namespace InterfaceShaping

def pipes (s : InterfaceShaping) : List Pipe := [s.inbound, s.outbound]

def queues (s : InterfaceShaping) : List Queue := [s.high, s.medium, s.low]

end InterfaceShaping

/-- A set of rules that is switched as a whole, and whether it is on at the end. -/
structure SetState where
  set : Int
  enabled : Bool
deriving DecidableEq, Repr

structure Program where
  rules : List Rule := []
  pipes : List Pipe := []
  queues : List Queue := []
  setStates : List SetState := []
deriving DecidableEq, Repr

namespace Program

def rulesInSet (p : Program) (set : Int) : List Rule := p.rules.filter (·.set = set)

/-- The rules in the order in which they are added to a running filter. A filter without rules
lets everything through, so the default-deny set goes in first, and its last rule before all
others. -/
def installOrder (p : Program) : List Rule :=
  (p.rulesInSet defaultDenySet).reverse ++ p.rules.filter (·.set ≠ defaultDenySet)

theorem installOrder_perm (p : Program) : p.installOrder.Perm p.rules := by
  have h := List.filter_append_perm (fun r : Rule => decide (r.set = defaultDenySet)) p.rules
  refine List.Perm.trans ?_ h
  simp only [installOrder, rulesInSet]
  refine List.Perm.append (List.reverse_perm _) (List.Perm.of_eq ?_)
  congr 1
  funext r
  simp

def rule? (p : Program) (number : Int) : Option Rule := p.rules.find? (·.number = number)

def sets (p : Program) : List Int :=
  firstOccurrences ((p.rules.map (·.set)).mergeSort fun a b => a ≤ b)

end Program
end Firewall
