import Firewall.Numbering

/-!
Chains of stages that hand rules on one at a time. A stage takes rules from the one before it
only when it is asked for a rule itself; a stage that needs the whole program takes all there is
the first time. The emitted rules are shared: stages hold places in their list, so a change that
one stage makes to a rule is seen by all of them.
-/

namespace Firewall.Chain

inductive Kind
  | begin
  | silence
  | check
  | sort
  | store
  | debug
  /-- A stage that says nothing of what it does. -/
  | bare
deriving DecidableEq, Repr

def Kind.name : Kind → String
  | .begin => "Begin"
  | .silence => "stealth responses"
  | .check => "check rule numbers"
  | .sort => "sort by rule number"
  | .store => "store rules"
  | .debug => ""
  | .bare => "basic"

structure Stage where
  kind : Kind
  name : String := kind.name
  /-- The places of the rules that wait to be handed on. -/
  queue : List Nat := []
  /-- Whether the stage has taken what it takes only once. -/
  spent : Bool := false
deriving DecidableEq, Repr

/-- What all stages of a chain share. -/
structure Desk where
  rules : List Rule
  stealth : Bool
  debugging : Bool
  /-- The places of the rules of the finished program. -/
  stored : List Nat := []
  diagnostics : Diagnostics := {}
deriving DecidableEq, Repr

namespace Desk

def blank : Rule := { set := 0, number := 0, action := .deny, what := {} }

def rule (d : Desk) (i : Nat) : Rule := d.rules.getD i blank

def program (d : Desk) : List Rule := d.stored.map d.rule

/-- Withholds the answer of the rule at a place, in stealth mode. -/
def silence (d : Desk) (i : Nat) : Desk :=
  if d.stealth then { d with rules := d.rules.modify i Rule.silenced } else d

end Desk

inductive Fault
  /-- A stage was to take all rules, and no stage stands before it. -/
  | nothingToGather
  /-- A stage was to take a rule, and no stage stands before it. -/
  | nothingToPull
  | stopped (stop : Numbering.Stop)
  | bareStage
deriving DecidableEq, Repr

/-- The outcome of asking a line of stages: what they did stays done when one of them fails. A
line is written from its last stage back to its first. -/
structure Outcome (α : Type) where
  answer : Except Fault α
  line : List Stage
  desk : Desk

/-- Asks a line for its next rule. -/
abbrev Source := List Stage → Desk → Outcome (Option Nat)

/-- The number of rules that a line can still hand on. -/
def supply (line : List Stage) (d : Desk) : Nat :=
  line.foldr (fun s n =>
    s.queue.length + (if s.kind = .begin ∧ s.spent = false then d.rules.length else 0) + n) 0

/-- Takes rules until there are no more; what was taken before a fault is kept. -/
def takeAll (source : Source) : Nat → List Stage → Desk → List Nat × Outcome Unit
  | 0, line, d => ([], ⟨.ok (), line, d⟩)
  | fuel + 1, line, d =>
    match source line d with
    | ⟨.error fault, line, d⟩ => ([], ⟨.error fault, line, d⟩)
    | ⟨.ok none, line, d⟩ => ([], ⟨.ok (), line, d⟩)
    | ⟨.ok (some i), line, d⟩ =>
      let (taken, outcome) := takeAll source fuel line d
      (i :: taken, outcome)

/-- Moves the rest of the program into the queue of a stage, the first time only; the answer says
whether there was any. -/
def gather (source : Source) (s : Stage) (before : List Stage) (d : Desk) : Outcome Bool :=
  if s.spent then ⟨.ok false, s :: before, d⟩
  else if before.isEmpty then ⟨.error .nothingToGather, s :: before, d⟩
  else
    match takeAll source (supply before d + 1) before d with
    | (taken, ⟨.error fault, before, d⟩) =>
      ⟨.error fault, { s with queue := s.queue ++ taken } :: before, d⟩
    | (taken, ⟨.ok (), before, d⟩) =>
      let queue := s.queue ++ taken
      ⟨.ok (!queue.isEmpty), { s with queue, spent := true } :: before, d⟩

def pull (source : Source) (before : List Stage) (d : Desk) : Outcome (Option Nat) :=
  if before.isEmpty then ⟨.error .nothingToPull, before, d⟩ else source before d

/-- One step of the last stage of a line; the answer says whether there was anything to do. -/
def step (source : Source) : List Stage → Desk → Outcome Bool
  | [], d => ⟨.ok false, [], d⟩
  | s :: before, d =>
    match s.kind with
    | .begin =>
      if s.spent then ⟨.ok false, s :: before, d⟩
      else
        let queue := s.queue ++ List.range d.rules.length
        ⟨.ok (!queue.isEmpty), { s with queue, spent := true } :: before, d⟩
    | .silence =>
      match pull source before d with
      | ⟨.error fault, before, d⟩ => ⟨.error fault, s :: before, d⟩
      | ⟨.ok none, before, d⟩ => ⟨.ok false, s :: before, d⟩
      | ⟨.ok (some i), before, d⟩ =>
        ⟨.ok true, { s with queue := s.queue ++ [i] } :: before, d.silence i⟩
    | .store =>
      match pull source before d with
      | ⟨.error fault, before, d⟩ => ⟨.error fault, s :: before, d⟩
      | ⟨.ok none, before, d⟩ => ⟨.ok false, s :: before, d⟩
      | ⟨.ok (some i), before, d⟩ => ⟨.ok true, s :: before, { d with stored := d.stored ++ [i] }⟩
    | .check =>
      match gather source s before d with
      | ⟨.ok true, s :: before, d⟩ =>
        match Numbering.check d.diagnostics (s.queue.map d.rule) with
        | (diagnostics, none) => ⟨.ok true, s :: before, { d with diagnostics }⟩
        | (diagnostics, some stop) =>
          ⟨.error (.stopped stop), s :: before, { d with diagnostics }⟩
      | outcome => outcome
    | .sort =>
      match gather source s before d with
      | ⟨.ok true, s :: before, d⟩ =>
        let queue := s.queue.mergeSort fun i j => (d.rule i).number ≤ (d.rule j).number
        ⟨.ok true, { s with queue } :: before, d⟩
      | outcome => outcome
    | .debug =>
      if before.isEmpty then ⟨.error .nothingToGather, s :: before, d⟩
      else match gather source s before d with
        | ⟨.ok _, s :: before, d⟩ =>
          if s.queue.isEmpty then ⟨.ok false, s :: before, d⟩
          else if d.debugging then
            let stage := (before.head?.map (·.name)).getD ""
            match Numbering.display stage (s.queue.map d.rule) d.diagnostics with
            | (diagnostics, none) => ⟨.ok true, s :: before, { d with diagnostics }⟩
            | (diagnostics, some stop) =>
              ⟨.error (.stopped stop), s :: before, { d with diagnostics }⟩
          else ⟨.ok true, s :: before, d⟩
        | outcome => outcome
    | .bare => ⟨.error .bareStage, s :: before, d⟩

def handOn : List Stage → Desk → Outcome (Option Nat)
  | s :: before, d =>
    match s.queue with
    | i :: rest => ⟨.ok (some i), { s with queue := rest } :: before, d⟩
    | [] => ⟨.ok none, s :: before, d⟩
  | [], d => ⟨.ok none, [], d⟩

/-- Lets the last stage of a line work until a rule waits in it or there is nothing to do. Only a
storing stage does not get there in one step, since it keeps nothing to hand on. -/
def work (source : Source) : Nat → List Stage → Desk → Outcome Unit
  | 0, line, d => ⟨.ok (), line, d⟩
  | fuel + 1, line, d =>
    match step source line d with
    | ⟨.error fault, line, d⟩ => ⟨.error fault, line, d⟩
    | ⟨.ok false, line, d⟩ => ⟨.ok (), line, d⟩
    | ⟨.ok true, line, d⟩ =>
      match line with
      | ⟨.store, _, [], _⟩ :: _ => work source fuel line d
      | _ => ⟨.ok (), line, d⟩

/-- The next rule of a line of at most `depth` stages. -/
def next : Nat → Source
  | 0, line, d => ⟨.ok none, line, d⟩
  | depth + 1, line, d =>
    match handOn line d with
    | ⟨.ok none, line, d⟩ =>
      match work (next depth) (supply line d + 1) line d with
      | ⟨.error fault, line, d⟩ => ⟨.error fault, line, d⟩
      | ⟨.ok (), line, d⟩ => handOn line d
    | outcome => outcome

def nextAt (stages : List Stage) (i : Nat) (d : Desk) : Outcome (Option Nat) :=
  let line := (stages.take (i + 1)).reverse
  let outcome := next line.length line d
  { outcome with line := outcome.line.reverse ++ stages.drop (i + 1) }

/-- What became of a run: it ended, or it was still going after the given number of steps. -/
inductive Run
  | ended (answer : Except Fault Unit) (line : List Stage) (desk : Desk)
  | unfinished (line : List Stage) (desk : Desk)

/-- Lets the last stage of a line work as long as there is anything to do. -/
def drive : Nat → List Stage → Desk → Run
  | 0, line, d => .unfinished line d
  | fuel + 1, line, d =>
    match step (next (line.length - 1)) line d with
    | ⟨.error fault, line, d⟩ => .ended (.error fault) line d
    | ⟨.ok false, line, d⟩ => .ended (.ok ()) line d
    | ⟨.ok true, line, d⟩ => drive fuel line d

def run (fuel : Nat) (stages : List Stage) (d : Desk) : Run := drive fuel stages.reverse d

/-- The chain of the given stages; with debugging on, a stage that shows the program stands behind
each of them but the storing ones. -/
def assemble (debugging : Bool) (kinds : List Kind) : List Stage :=
  kinds.flatMap fun kind =>
    if debugging ∧ kind ≠ .store then [{ kind }, { kind := .debug }] else [{ kind }]

def standard : List Kind := [.begin, .silence, .check, .sort, .store]

end Firewall.Chain
