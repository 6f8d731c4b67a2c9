import Firewall.Diagnostics

/-!
The final treatment of a program: in stealth mode the answers of its rejecting rules are withheld,
its numbers are checked, and its rules are put in the order of evaluation. A rule of a purpose that
is not known stops the treatment, and so does a number that has to be written and is too long.
-/

namespace Firewall

namespace Numbering

/-- What stops the treatment of a program. -/
inductive Stop
  | unknownPurpose (text : String)
  | longNumber
deriving DecidableEq, Repr

def Stop.message : Stop → String
  | .unknownPurpose text => Text.Quoted.quote text ++ " is not a valid Purpose"
  | .longNumber => Text.longNumber

/-- What is wrong with the place of a rule that belongs to band `b`. -/
def misplaced? (r : Rule) (b : Band) : Option String := do
  let number ← Text.decimal? r.number
  let set ← Text.decimal? r.set
  return "number " ++ number ++ " set " ++ set ++ " outside band "
    ++ toString b.base ++ "-" ++ toString b.last ++ " set " ++ toString b.set

/-- The label of the rule that holds a number so far. -/
def holder? (seen : List (Int × String)) (number : Int) : Option String :=
  seen.lookup number

/-- What is wrong with a rule of purpose `p`, after rules whose numbers and labels are `seen`,
the latest first. -/
def faults? (seen : List (Int × String)) (r : Rule) (p : Purpose) : Option (List String) := do
  let place ← if p.band.holds r.set r.number then some [] else (misplaced? r p.band).map ([·])
  let number ← Text.decimal? r.number
  return place ++ match holder? seen r.number with
    | some label => ["rule number " ++ number ++ " already used by " ++ label]
    | none => []

/-- Checks every rule after the ones already seen. A rule without a purpose has no band. What is
wrong with a rule is written before the program is abandoned for it, its label only afterwards. -/
def checkFrom (seen : List (Int × String)) (d : Diagnostics) :
    List Rule → Diagnostics × Option Stop
  | [] => (d, none)
  | r :: rest =>
    match r.tag with
    | .unknown text => (d, some (.unknownPurpose text))
    | .untagged =>
      match r.label? with
      | none => (d.abort, some .longNumber)
      | some label => checkFrom seen (d.abortFor label "rule has no number band") rest
    | .known p =>
      match faults? seen r p, r.label? with
      | some texts, some label =>
        checkFrom ((r.number, label) :: seen) (texts.foldl (·.abortFor label ·) d) rest
      | _, _ => (d, some .longNumber)

/-- Checks that every rule lies in its band and that no number is used twice. -/
def check (d : Diagnostics) (rules : List Rule) : Diagnostics × Option Stop :=
  checkFrom [] d rules

/-- The rules in the order of their numbers; rules of one number keep their order. -/
def sort (rules : List Rule) : List Rule := rules.mergeSort fun a b => a.number ≤ b.number

theorem sort_perm (rules : List Rule) : (sort rules).Perm rules := List.mergeSort_perm rules _

def silence (stealth : Bool) (rules : List Rule) : List Rule :=
  if stealth then rules.map Rule.silenced else rules

/-- The lines of rules up to the first that cannot be written, and what stopped there. -/
def lines : List Rule → List Notice × Option Stop
  | [] => ([], none)
  | r :: rest =>
    match r.line? with
    | none => ([], some .longNumber)
    | some line =>
      let (more, stop) := lines rest
      (.log .debug line :: more, stop)

/-- Shows a program as a stage of its treatment left it. -/
def display (stage : String) (rules : List Rule) (d : Diagnostics) : Diagnostics × Option Stop :=
  let title := "--- " ++ stage ++ " (" ++ toString rules.length ++ " rules) "
    ++ String.ofList (List.replicate 40 '-')
  let (lines, stop) := lines rules
  ({ d with notices := d.notices ++ .log .debug title :: lines }, stop)

/-- Takes steps one after the other, up to the first that is stopped. -/
def inTurn : List (Diagnostics → Diagnostics × Option Stop) → Diagnostics →
    Diagnostics × Option Stop
  | [], d => (d, none)
  | step :: rest, d =>
    match step d with
    | (d, some stop) => (d, some stop)
    | (d, none) => inTurn rest d

structure Settled where
  rules : List Rule
  diagnostics : Diagnostics
  stopped : Option Stop
deriving DecidableEq, Repr

/-- Treats the emitted rules; `debugging` shows them after every stage. -/
def settle (stealth debugging : Bool) (emitted : List Rule) : Settled :=
  let shown (stage : String) (rules : List Rule) (d : Diagnostics) : Diagnostics × Option Stop :=
    if debugging && !rules.isEmpty then display stage rules d else (d, none)
  let silent := silence stealth emitted
  let ordered := sort silent
  let stages := [shown "Begin compilation" emitted, shown "stealth responses" silent,
    (check · silent), shown "check rule numbers" silent, shown "sort by rule number" ordered]
  match inTurn stages {} with
  | (d, some stop) => { rules := [], diagnostics := d, stopped := some stop }
  | (d, none) => { rules := ordered, diagnostics := d, stopped := none }

end Numbering
end Firewall
