import Firewall.Band

/-!
Rules. A rule pairs an action with a match, the conjunction of what it asks of a packet; nothing
in either knows how a packet filter spells it.
-/

namespace Firewall

inductive Action
  | allow
  | deny
  | reject
  | skipto
  | pipe
  | queue
  | checkState
  | divert
deriving DecidableEq, Repr

namespace Action

def all : List Action := [.allow, .deny, .reject, .skipto, .pipe, .queue, .checkState, .divert]

def text : Action → String
  | .allow => "allow"
  | .deny => "deny"
  | .reject => "reject"
  | .skipto => "skipto"
  | .pipe => "pipe"
  | .queue => "queue"
  | .checkState => "check-state"
  | .divert => "divert"

def ofText? (text : String) : Option Action := all.find? (·.text = text)

theorem ofText?_text (a : Action) : ofText? a.text = some a := by cases a <;> rfl

end Action

inductive Response
  | drop
  | tcpReset
  | hostUnreachable
  | hostProhibited
  | filterProhibited
deriving DecidableEq, Repr

namespace Response

def all : List Response :=
  [.drop, .tcpReset, .hostUnreachable, .hostProhibited, .filterProhibited]

def text : Response → String
  | .drop => "drop"
  | .tcpReset => "reset"
  | .hostUnreachable => "unreach host"
  | .hostProhibited => "unreach host-prohib"
  | .filterProhibited => "unreach filter-prohib"

def ofText? (text : String) : Option Response := all.find? (·.text = text)

theorem ofText?_text (r : Response) : ofText? r.text = some r := by cases r <;> rfl

end Response

inductive Direction
  | both
  | inbound
  | outbound
deriving DecidableEq, Repr

namespace Direction

def text : Direction → String
  | .both => ""
  | .inbound => "in"
  | .outbound => "out"

def name : Direction → String
  | .both => "BOTH"
  | .inbound => "IN"
  | .outbound => "OUT"

def ofText? (text : String) : Option Direction :=
  [Direction.both, .inbound, .outbound].find? (·.text = text)

theorem ofText?_text (d : Direction) : ofText? d.text = some d := by cases d <;> rfl

end Direction

/-- The source or the destination of a packet. No ports means any port. -/
structure Endpoint where
  addresses : List String := ["any"]
  ports : List String := []
  negate : Bool := false
  portsNegate : Bool := false
deriving DecidableEq, Repr

namespace Endpoint

def isAny (e : Endpoint) : Bool := e.addresses == ["any"] && !e.negate && e.ports.isEmpty

def me : Endpoint := { addresses := ["me"] }

def network (n : Network) : Endpoint := { addresses := [n.text] }

def anyAt (ports : List String) : Endpoint := { ports }

def anyNotAt (ports : List String) : Endpoint := { ports, portsNegate := true }

end Endpoint

/-- What a rule asks of a packet. Several names in `via` are alternatives. -/
structure Match where
  proto : String := "all"
  src : Endpoint := {}
  dst : Endpoint := {}
  direction : Direction := .both
  via : List String := []
  recv : Option String := none
  xmit : Option String := none
  setup : Bool := false
  established : Bool := false
  frag : Bool := false
  keepState : Bool := false
  tcpFlags : List String := []
  ipOptions : Option String := none
  icmpTypes : List Int := []
  ipLength : Option String := none
  /-- No ACK flag, or longer than an empty ACK. -/
  notSmallAck : Bool := false
  badReversePath : Bool := false
deriving DecidableEq, Repr

/-- What an action refers to: a rule, pipe or queue by number, or a port by name. -/
inductive Target
  | id (n : Int)
  | name (s : String)
deriving DecidableEq, Repr

def Target.text : Target → String
  | .id n => toString n
  | .name s => s

/-- The purpose that a rule states: none, one of the known ones, or another text. -/
inductive Tag
  | untagged
  | known (p : Purpose)
  | unknown (text : String)
deriving DecidableEq, Repr

namespace Tag

def text : Tag → String
  | .untagged => ""
  | .known p => p.text
  | .unknown text => text

def ofText (text : String) : Tag :=
  if text = "" then .untagged
  else match Purpose.ofText? text with
    | some p => .known p
    | none => .unknown text

theorem ofText_purpose (p : Purpose) : ofText p.text = .known p := by
  simp [ofText, p.text_ne_empty, p.ofText?_text]

end Tag

structure Rule where
  set : Int
  number : Int
  action : Action
  what : Match
  log : Bool := false
  response : Option Response := none
  target : Option Target := none
  tag : Tag := .untagged
deriving DecidableEq, Repr

namespace Rule

/-- The number of a rule, and its purpose if it states one; there is no label for a number that
cannot be written. -/
def label? (r : Rule) : Option String :=
  (Text.decimal? r.number).map fun number =>
    if r.tag.text.isEmpty then number else number ++ " (" ++ r.tag.text ++ ")"

/-- The rule with its answer withheld: a rejected packet is dropped without a word. -/
def silenced (r : Rule) : Rule :=
  if r.action = .reject then { r with response := some .drop } else r

/-! ### The record of a rule in debugging output

A record is written only if all of its numbers can be.
-/

open Text.Quoted (quote)

def group : List String → String
  | [] => "()"
  | [x] => "(" ++ x ++ ",)"
  | xs => "(" ++ ", ".intercalate xs ++ ")"

def optional : Option String → String
  | none => "None"
  | some s => quote s

def endpointRecord (e : Endpoint) : String :=
  "Endpoint(addresses=" ++ group (e.addresses.map quote)
    ++ ", ports=" ++ group (e.ports.map quote)
    ++ ", negate=" ++ Data.boolText e.negate
    ++ ", ports_negate=" ++ Data.boolText e.portsNegate ++ ")"

def matchRecord? (m : Match) : Option String := do
  let icmpTypes ← m.icmpTypes.mapM Text.decimal?
  return "Match(proto=" ++ quote m.proto
    ++ ", src=" ++ endpointRecord m.src
    ++ ", dst=" ++ endpointRecord m.dst
    ++ ", direction=<Direction." ++ m.direction.name ++ ": " ++ quote m.direction.text ++ ">"
    ++ ", via=" ++ group (m.via.map quote)
    ++ ", recv=" ++ optional m.recv
    ++ ", xmit=" ++ optional m.xmit
    ++ ", setup=" ++ Data.boolText m.setup
    ++ ", established=" ++ Data.boolText m.established
    ++ ", frag=" ++ Data.boolText m.frag
    ++ ", keep_state=" ++ Data.boolText m.keepState
    ++ ", tcpflags=" ++ group (m.tcpFlags.map quote)
    ++ ", ipoptions=" ++ optional m.ipOptions
    ++ ", icmptypes=" ++ group icmpTypes
    ++ ", iplen=" ++ optional m.ipLength
    ++ ", not_small_ack=" ++ Data.boolText m.notSmallAck
    ++ ", bad_reverse_path=" ++ Data.boolText m.badReversePath ++ ")"

def line? (r : Rule) : Option String := do
  let label ← r.label?
  let set ← Text.decimal? r.set
  let what ← matchRecord? r.what
  return label ++ " set " ++ set ++ " " ++ r.action.text ++ " " ++ what

def fullRecord? (r : Rule) : Option String := do
  let set ← Text.decimal? r.set
  let number ← Text.decimal? r.number
  let what ← matchRecord? r.what
  let target ← targetRecord? r.target
  return "Rule(set_id=" ++ set
    ++ ", number=" ++ number
    ++ ", action=<Action." ++ (r.action.text.toUpper.replace "-" "_") ++ ": "
    ++ quote r.action.text ++ ">"
    ++ ", match=" ++ what
    ++ ", log=" ++ Data.boolText r.log
    ++ ", response=" ++ responseRecord r.response
    ++ ", target=" ++ target
    ++ ", purpose=" ++ quote r.tag.text ++ ")"
where
  responseRecord : Option Response → String
    | none => "None"
    | some r =>
      let name := match r with
        | .drop => "DROP"
        | .tcpReset => "TCP_RESET"
        | .hostUnreachable => "HOST_UNREACHABLE"
        | .hostProhibited => "HOST_PROHIBITED"
        | .filterProhibited => "FILTER_PROHIBITED"
      "<ResponseKind." ++ name ++ ": " ++ quote r.text ++ ">"
  targetRecord? : Option Target → Option String
    | none => some "None"
    | some (.id n) => Text.decimal? n
    | some (.name s) => some (quote s)

end Rule

/-- A rule before it has its number: the purpose and the index of an interface decide it. -/
structure Draft where
  purpose : Purpose
  action : Action
  what : Match
  index : Option Int := none
  log : Bool := false
  response : Option Response := none
  target : Option Target := none
deriving DecidableEq, Repr

namespace Draft

def place (d : Draft) : Except Band.Fault Rule := do
  let number ← d.purpose.band.number d.index
  return { set := d.purpose.band.set, number, action := d.action, what := d.what, log := d.log,
           response := d.response, target := d.target, tag := .known d.purpose }

/-- Places drafts in their order, up to the first that has no place. -/
def placeAll : List Draft → Except Band.Fault (List Rule)
  | [] => .ok []
  | d :: rest => do
    let r ← d.place
    let rs ← placeAll rest
    .ok (r :: rs)

end Draft
end Firewall
