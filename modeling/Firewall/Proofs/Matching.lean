import Firewall.Ports
import Firewall.Rule

/-!
What a match asks of a packet. A match is the conjunction of its fields, and its words are read
against a station: the addresses of the host and the interfaces that a name stands for.
-/

namespace Firewall

def Ports.covers (word : String) (port : Nat) : Bool :=
  match split? word.toList with
  | none => false
  | some (first, none) => Text.ofDigits first = port
  | some (first, some last) => Text.ofDigits first ≤ port && port ≤ Text.ofDigits last

/-- The addresses from 224.0.0.0 on, which are not those of a single host. -/
def Block.classDE : Block := { address := 3758096384, length := 3 }

/-- A host as its filter knows it. -/
structure Station where
  own : Nat → Bool
  unicast : ∀ a, own a = true → Block.classDE.contains a = false
  named : String → String → Bool

structure Packet where
  proto : String
  src : Nat
  dst : Nat
  srcPort : Option Nat := none
  dstPort : Option Nat := none
  inbound : Bool
  /-- The interface it arrived on and the one it leaves by. -/
  arrival : Option String := none
  exit : Option String := none
  flags : List String := []
  options : List String := []
  fragment : Bool := false
  icmpType : Option Int := none
  length : Nat := 0
  /-- The way back to its source leads over the interface it arrived on. -/
  reversible : Bool := true

namespace Station

def reads (s : Station) (word : String) (a : Nat) : Bool :=
  if word = "me" then s.own a
  else match Network.parse word with
    | .ok .any => true
    | .ok (.block b) => b.contains a
    | .error _ => false

/-- A negated list of ports also lets a packet without ports through. -/
def endpoint (s : Station) (e : Endpoint) (address : Nat) (port : Option Nat) : Bool :=
  (e.addresses.any (s.reads · address)) != e.negate
    && (e.ports.isEmpty || (port.any fun n => e.ports.any (Ports.covers · n)) != e.portsNegate)

def bound (s : Station) (name : String) (interface : Option String) : Bool :=
  interface.any (s.named name)

end Station

namespace Packet

/-- A flag, or after an exclamation mark one that is not set. -/
def flagged (p : Packet) (word : String) : Bool :=
  match word.toList with
  | '!' :: flag => !p.flags.contains (String.ofList flag)
  | _ => p.flags.contains word

def interface (p : Packet) : Option String := if p.inbound then p.arrival else p.exit

def directed (p : Packet) : Direction → Bool
  | .both => true
  | .inbound => p.inbound
  | .outbound => !p.inbound

/-- Nothing is asked by an empty word. -/
def asked (word : Option String) (test : String → Bool) : Bool :=
  word.all fun w => w.isEmpty || test w

def isTcp (p : Packet) : Bool := p.proto = "tcp"

def opens (p : Packet) : Bool := p.isTcp && p.flags.contains "syn" && !p.flags.contains "ack"

def continues (p : Packet) : Bool :=
  p.isTcp && (p.flags.contains "ack" || p.flags.contains "rst")

def meets (s : Station) (p : Packet) (m : Match) : Bool :=
  (m.proto = "all" || m.proto = p.proto)
    && s.endpoint m.src p.src p.srcPort
    && s.endpoint m.dst p.dst p.dstPort
    && p.directed m.direction
    && (m.via.isEmpty || m.via.any (s.bound · p.interface))
    && asked m.recv (s.bound · p.arrival)
    && asked m.xmit (fun name => !p.inbound && s.bound name p.exit)
    && (!m.setup || p.opens)
    && (!m.established || p.continues)
    && (!m.frag || p.fragment)
    && (m.tcpFlags.isEmpty || p.isTcp && m.tcpFlags.all p.flagged)
    && asked m.ipOptions p.options.contains
    && (m.icmpTypes.isEmpty || p.icmpType.any m.icmpTypes.contains)
    && asked m.ipLength (Ports.covers · p.length)
    && (!m.notSmallAck || p.isTcp && !p.flags.contains "ack" || 80 < p.length)
    && (!m.badReversePath || !p.reversible)

end Packet
end Firewall
