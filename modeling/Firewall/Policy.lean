import Firewall.Ruleset
import Firewall.Host

/-!
Compilation of a registry of interfaces into a policy: the rules are drafted, placed and settled,
and the program is complete only if its numbering holds.
-/

namespace Firewall

structure Policy where
  program : Program
  shaping : List InterfaceShaping
  services : List ServiceToggle
  sysctls : List Sysctl
  warnings : List String
deriving DecidableEq, Repr

inductive PolicyFault
  | band (fault : Band.Fault)
  | stopped (stop : Numbering.Stop)
  | numbering (errors : List String)
deriving DecidableEq, Repr

def PolicyFault.message : PolicyFault → String
  | .band fault => fault.message
  | .stopped stop => stop.message
  | .numbering errors => "; ".intercalate errors

namespace Policy

def baselinePipes : List Pipe :=
  [ { id := synPipe, bandwidth := some "64Kbit/s", slots := some 5 },
    { id := rstDelayPipe, delay := some 500 },
    { id := icmpInPipe, bandwidth := some "16Kbit/s", slots := some 1 },
    { id := icmpOutPipe, bandwidth := some "16Kbit/s", slots := some 5 } ]

/-- Interfaces of one kind of hosts whose services stay closed for want of a network. -/
def unservedWarnings (r : Registry) (wanted : HostKinds → Bool) (label : String) : List String :=
  (r.interfaces.filter fun i => wanted i.hosts && !i.bounded).map fun i =>
    "Interface " ++ i.name ++ " (index " ++ toString i.index ++ ") is marked +" ++ label
      ++ " but has no network; " ++ label ++ " services stay closed"

def allWarnings (r : Registry) : List String :=
  unservedWarnings r (·.mac) "mac" ++ unservedWarnings r (·.windows) "win"

/-- There is no need to advertise services whose packets never leave the host. -/
def serviceToggles (r : Registry) : List ServiceToggle :=
  [{ service := Host.mdnsService, enable := r.interfaces.any (·.hosts.mac) }]

def announcements (r : Registry) (o : Options) : List Notice :=
  [.log .info (" Compiling policy for " ++ toString r.size ++ " interface(s)")]
    ++ o.router.toList.map (fun router =>
      .log .info (" Routing " ++ router.client ++ " (" ++ router.network.text ++ ") over "
        ++ router.external))
    ++ (allWarnings r).map (.log .warning)
    ++ (Shaping.plan r).map Shaping.announcement

/-- A compilation: its policy or the fault that stopped it, and what it left behind. -/
structure Compilation where
  result : Except PolicyFault Policy
  notices : List Notice
  errors : List String := []
  warnings : List String
  /-- The rules that passed through the final treatment. -/
  stored : List Rule := []

def assemble (r : Registry) (sysctls : List Sysctl) (rules : List Rule) : Policy :=
  let shaping := Shaping.plan r
  { program :=
      { rules
        pipes := baselinePipes ++ shaping.flatMap (·.pipes)
        queues := shaping.flatMap (·.queues)
        setStates := toggleableSets.map fun set => { set, enabled := 0 < r.size } }
    shaping
    services := serviceToggles r
    sysctls
    warnings := allWarnings r }

def finish (r : Registry) (o : Options) (host debugging : Bool) (emitted : List Rule) :
    Compilation :=
  let settled := Numbering.settle o.stealth debugging emitted
  let d := settled.diagnostics
  let result := match settled.stopped with
    | some stop => .error (.stopped stop)
    | none =>
      if d.aborted || !d.errors.isEmpty then .error (.numbering d.errors)
      else .ok (assemble r (if host then Host.sysctls o else []) settled.rules)
  { result, notices := announcements r o ++ d.notices, errors := d.errors,
    warnings := allWarnings r, stored := settled.rules }

/-- Compiles the policy of a registry. The kernel parameters belong to it if the host is to be
configured; `debugging` shows the rules after every stage of their treatment. -/
def compile (r : Registry) (o : Options) (host debugging : Bool) : Compilation :=
  match Draft.placeAll (Ruleset.drafts r o) with
  | .error fault =>
    { result := .error (.band fault), notices := announcements r o, warnings := allWarnings r }
  | .ok emitted => finish r o host debugging emitted

end Policy
end Firewall
