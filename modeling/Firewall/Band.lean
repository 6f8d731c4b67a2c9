import Firewall.Purpose
import Firewall.Registry

/-!
The numbers of rules, pipes and queues. Every purpose has a band of rule numbers of its own: one
number, or one for each interface that can be declared. Rules are evaluated by number, whatever
their set; the shaping rules of set 10 are numbered to act before state tracking.
-/

namespace Firewall

/-- The rule numbers reserved for one purpose. -/
structure Band where
  set : Int
  purpose : Purpose
  base : Int
  perInterface : Bool := false
deriving DecidableEq, Repr

def Purpose.literal (p : Purpose) : String :=
  "<Purpose." ++ p.name ++ ": " ++ Text.Quoted.quote p.text ++ ">"

namespace Band

def width (b : Band) : Int := if b.perInterface then maxInterfaces else 1

def last (b : Band) : Int := b.base + b.width - 1

inductive Fault
  | notPerInterface (purpose : Purpose)
  | badIndex (purpose : Purpose) (index : Option Int)
  | overlap (upper lower : Band)
  | duplicate (purpose : Purpose)
  | idOverlap (upper lower : String)
deriving DecidableEq, Repr

/-- The wording of a fault whose numbers can be written. -/
def Fault.wording? : Fault → Option String
  | .notPerInterface p => some ("band " ++ p.literal ++ " is not per interface")
  | .badIndex p index => do
    let index ← match index with
      | none => some "None"
      | some i => Text.decimal? i
    return "band " ++ p.literal ++ ": bad interface index " ++ index
  | .overlap upper lower => do
    let base ← Text.decimal? upper.base
    let first ← Text.decimal? lower.base
    let last ← Text.decimal? lower.last
    return "rule band " ++ upper.purpose.literal ++ " (" ++ base ++ ") overlaps "
      ++ lower.purpose.literal ++ " (" ++ first ++ "-" ++ last ++ ")"
  | .duplicate p => some ("duplicate rule band " ++ p.literal)
  | .idOverlap upper lower => some (upper ++ " ids overlap " ++ lower ++ " ids")

def Fault.message (f : Fault) : String := f.wording?.getD Text.longNumber

/-- The number of the rule for one interface, or of the only rule of its purpose. -/
def number (b : Band) (index : Option Int) : Except Fault Int :=
  if b.perInterface then
    match index with
    | some i => if 0 ≤ i ∧ i < maxInterfaces then .ok (b.base + i) else .error (.badIndex b.purpose index)
    | none => .error (.badIndex b.purpose none)
  else match index with
    | none => .ok b.base
    | some _ => .error (.notPerInterface b.purpose)

def holds (b : Band) (set number : Int) : Bool :=
  set = b.set && b.base ≤ number && number ≤ b.last

/-- The first band that begins within its predecessor. -/
def firstOverlap? : List Band → Option (Band × Band)
  | lower :: upper :: rest =>
    if upper.base ≤ lower.last then some (upper, lower) else firstOverlap? (upper :: rest)
  | _ => none

def firstDuplicate? (seen : List Purpose) : List Band → Option Purpose
  | [] => none
  | b :: rest =>
    if seen.contains b.purpose then some b.purpose else firstDuplicate? (b.purpose :: seen) rest

/-- The bands by their numbers, if no two overlap and no purpose has two. -/
def check (bands : List Band) : Except Fault (List Band) :=
  let ordered := bands.mergeSort fun a b => a.base ≤ b.base
  match firstOverlap? ordered with
  | some (upper, lower) => .error (.overlap upper lower)
  | none => match firstDuplicate? [] ordered with
    | some p => .error (.duplicate p)
    | none => .ok ordered

end Band

structure IdRange where
  name : String
  first : Int
  last : Int
deriving DecidableEq, Repr

namespace IdRange

def firstOverlap? : List IdRange → Option (IdRange × IdRange)
  | lower :: upper :: rest =>
    if upper.first ≤ lower.last then some (upper, lower) else firstOverlap? (upper :: rest)
  | _ => none

/-- Refuses ranges of which one begins within its predecessor. -/
def check (ranges : List IdRange) : Except Band.Fault Unit :=
  match firstOverlap? (ranges.mergeSort fun a b => a.first ≤ b.first) with
  | some (upper, lower) => .error (.idOverlap upper.name lower.name)
  | none => .ok ()

end IdRange

def Purpose.band : Purpose → Band
  | .loopback => ⟨0, .loopback, 100, false⟩
  | .natd => ⟨0, .natd, 200, false⟩
  | .synLimit => ⟨0, .synLimit, 300, false⟩
  | .rstDelay => ⟨0, .rstDelay, 350, false⟩
  | .icmpInLimit => ⟨0, .icmpInLimit, 410, false⟩
  | .icmpOutLimit => ⟨0, .icmpOutLimit, 415, false⟩
  | .ipoptRr => ⟨0, .ipoptRr, 901, false⟩
  | .ipoptTs => ⟨0, .ipoptTs, 911, false⟩
  | .ipoptLsrr => ⟨0, .ipoptLsrr, 921, false⟩
  | .ipoptSsrr => ⟨0, .ipoptSsrr, 931, false⟩
  | .tcpSynFin => ⟨0, .tcpSynFin, 941, false⟩
  | .tcpSynRst => ⟨0, .tcpSynRst, 951, false⟩
  | .tcpSrcPort0 => ⟨0, .tcpSrcPort0, 961, false⟩
  | .tcpDstPort0 => ⟨0, .tcpDstPort0, 971, false⟩
  | .udpSrcPort0 => ⟨0, .udpSrcPort0, 981, false⟩
  | .udpDstPort0 => ⟨0, .udpDstPort0, 991, false⟩
  | .shapeSkipPrivateOut => ⟨10, .shapeSkipPrivateOut, 450, true⟩
  | .shapeSkipPrivateIn => ⟨10, .shapeSkipPrivateIn, 460, true⟩
  | .shapeInTcp => ⟨10, .shapeInTcp, 500, true⟩
  | .shapeInUdp => ⟨10, .shapeInUdp, 510, true⟩
  | .shapeHighAck => ⟨10, .shapeHighAck, 600, true⟩
  | .shapeMediumTcp => ⟨10, .shapeMediumTcp, 700, true⟩
  | .shapeMediumUdp => ⟨10, .shapeMediumUdp, 710, true⟩
  | .shapeLowTcp => ⟨10, .shapeLowTcp, 800, true⟩
  | .shapeLowUdp => ⟨10, .shapeLowUdp, 810, true⟩
  | .routeFromClient => ⟨1, .routeFromClient, 1000, false⟩
  | .routeToClient => ⟨1, .routeToClient, 1010, false⟩
  | .forwardFromClient => ⟨1, .forwardFromClient, 1100, false⟩
  | .forwardToClient => ⟨1, .forwardToClient, 1110, false⟩
  | .clientToRouter => ⟨1, .clientToRouter, 1200, false⟩
  | .routerToClient => ⟨1, .routerToClient, 1210, false⟩
  | .checkState => ⟨2, .checkState, 2000, false⟩
  | .denyFragments => ⟨2, .denyFragments, 2100, false⟩
  | .resetEstablished => ⟨2, .resetEstablished, 2110, false⟩
  | .macTcp => ⟨3, .macTcp, 3100, true⟩
  | .macUdp => ⟨3, .macUdp, 3200, true⟩
  | .macMdns => ⟨3, .macMdns, 3300, true⟩
  | .macMulticast => ⟨3, .macMulticast, 3400, true⟩
  | .macSsdp => ⟨3, .macSsdp, 3410, true⟩
  | .macBroadcast => ⟨3, .macBroadcast, 3420, true⟩
  | .winTcp => ⟨4, .winTcp, 4100, true⟩
  | .winUdp => ⟨4, .winUdp, 4200, true⟩
  | .winMulticast => ⟨4, .winMulticast, 4300, true⟩
  | .winSsdp => ⟨4, .winSsdp, 4320, true⟩
  | .winBroadcast => ⟨4, .winBroadcast, 4340, true⟩
  | .trustedIcmp => ⟨5, .trustedIcmp, 5100, true⟩
  | .rejectMulticast => ⟨5, .rejectMulticast, 5200, false⟩
  | .rejectSsdp => ⟨5, .rejectSsdp, 5210, false⟩
  | .rejectBroadcast => ⟨5, .rejectBroadcast, 5220, false⟩
  | .denyServiceUdp => ⟨5, .denyServiceUdp, 5300, false⟩
  | .rejectServiceTcp => ⟨5, .rejectServiceTcp, 5310, false⟩
  | .bootstrapIcmp => ⟨6, .bootstrapIcmp, 6000, false⟩
  | .bootstrapDhcp => ⟨6, .bootstrapDhcp, 6100, false⟩
  | .reversePath => ⟨7, .reversePath, 7000, false⟩
  | .notForMe => ⟨7, .notForMe, 7100, false⟩
  | .notFromMe => ⟨7, .notFromMe, 7110, false⟩
  | .knownNetwork => ⟨7, .knownNetwork, 7200, true⟩
  | .spoof192 => ⟨7, .spoof192, 7300, false⟩
  | .spoof172 => ⟨7, .spoof172, 7310, false⟩
  | .spoof10 => ⟨7, .spoof10, 7320, false⟩
  | .spoofLoopback => ⟨7, .spoofLoopback, 7400, false⟩
  | .rejectZeronet => ⟨7, .rejectZeronet, 7500, false⟩
  | .rejectLinkLocal => ⟨7, .rejectLinkLocal, 7600, false⟩
  | .rejectClassDe => ⟨7, .rejectClassDe, 7610, false⟩
  | .authReset => ⟨7, .authReset, 7700, false⟩
  | .outKnownTcp => ⟨11, .outKnownTcp, 11000, false⟩
  | .outKnownUdp => ⟨11, .outKnownUdp, 11100, false⟩
  | .outOtherTcp => ⟨11, .outOtherTcp, 11200, false⟩
  | .outOtherIp => ⟨11, .outOtherIp, 11210, false⟩
  | .trustedTcp => ⟨20, .trustedTcp, 20000, true⟩
  | .trustedUdp => ⟨20, .trustedUdp, 20020, true⟩
  | .localTcp => ⟨20, .localTcp, 20100, true⟩
  | .localUdp => ⟨20, .localUdp, 20120, true⟩
  | .publicTcp => ⟨20, .publicTcp, 20200, true⟩
  | .publicUdp => ⟨20, .publicUdp, 20220, true⟩
  | .rejectDnsFrom => ⟨30, .rejectDnsFrom, 30000, false⟩
  | .rejectDnsTo => ⟨30, .rejectDnsTo, 30010, false⟩
  | .rejectInUdp => ⟨30, .rejectInUdp, 30100, false⟩
  | .rejectInTcp => ⟨30, .rejectInTcp, 30110, false⟩
  | .rejectIn => ⟨30, .rejectIn, 30120, false⟩
  | .rejectOut => ⟨30, .rejectOut, 30200, false⟩
  | .rejectAll => ⟨30, .rejectAll, 30300, false⟩

def ruleNumber (p : Purpose) (index : Option Int) : Except Band.Fault Int := p.band.number index

theorem Purpose.band_purpose (p : Purpose) : p.band.purpose = p := by cases p <;> rfl

/-! ### Targets and identifiers -/

/-- Where rules that are not to shape a packet go on: after the shaping rules. -/
def shapingExit : Int := 900

/-- Where packets from a known network go on: after the rules against forged sources. -/
def knownNetworkExit : Int := 7500

def toggleableSets : List Int := [10, 11, 20]

def defaultDenySet : Int := 30

def synPipe : Int := 300
def rstDelayPipe : Int := 350
def icmpInPipe : Int := 400
def icmpOutPipe : Int := 410

def inboundPipe (index : Int) : Int := 100 + index

/-- The pipe of the outbound traffic of an interface; its queues are nested in it. -/
def outboundPipe (index : Int) : Int := 200 + index

def highQueue (index : Int) : Int := 100 + index
def mediumQueue (index : Int) : Int := 200 + index
def lowQueue (index : Int) : Int := 300 + index

end Firewall
