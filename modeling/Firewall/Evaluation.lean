import Firewall.Program

/-!
What a filter decides about a packet. The rules of the sets that are switched on are tried by
number. A packet that no rule decides is accepted: that is what the last rule of an empty filter
does. Which matches hold of a packet is left open.
-/

namespace Firewall

inductive Effect
  | accept
  | drop
  /-- Goes on at the first rule with at least this number. -/
  | skip (number : Int)
  | pass
deriving DecidableEq, Repr

def Rule.effect (r : Rule) : Effect :=
  match r.action with
  | .allow => .accept
  | .deny | .reject => .drop
  | .skipto => match r.target with
    | some (.id n) => .skip n
    | _ => .pass
  | .pipe | .queue | .checkState | .divert => .pass

theorem Rule.effect_silenced (r : Rule) : r.silenced.effect = r.effect := by
  unfold silenced
  split <;> rfl

namespace Evaluation

/-- Whether a packet is accepted by rules in the order of their numbers; rules with a number below
`start` are passed over. -/
def acceptsFrom (holds : Match → Bool) : Option Int → List Rule → Bool
  | _, [] => true
  | start, r :: rest =>
    if start.any (r.number < ·) || !holds r.what then acceptsFrom holds start rest
    else match r.effect with
      | .accept => true
      | .drop => false
      | .skip number => acceptsFrom holds (some number) rest
      | .pass => acceptsFrom holds start rest

def accepts (holds : Match → Bool) (on : Int → Bool) (rules : List Rule) : Bool :=
  acceptsFrom holds none (Numbering.sort (rules.filter fun r => on r.set))

/-- A set is on unless a state switches it off. -/
def switchedOn (states : List SetState) (set : Int) : Bool :=
  states.all fun s => s.set != set || s.enabled

def programAccepts (holds : Match → Bool) (p : Program) : Bool :=
  accepts holds (switchedOn p.setStates) p.rules

theorem accepts_nil (holds : Match → Bool) (on : Int → Bool) : accepts holds on [] = true := by
  simp [accepts, Numbering.sort, acceptsFrom]

end Evaluation
end Firewall
