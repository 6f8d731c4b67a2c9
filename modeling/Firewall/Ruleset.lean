import Firewall.Shaping
import Firewall.Options

/-!
The rules that a policy consists of, one list for each set of the program. A rule states its
purpose and, where there is one rule for each interface, the index of its interface.
-/

namespace Firewall.Ruleset

/-! ### Networks, addresses and ports -/

def loopbackNetwork : String := "127.0.0.0/8"
def multicastNetwork : String := "224.0.0.0/3"
def ssdpAddress : String := "239.255.255.253"
def broadcastAddress : String := "255.255.255.255"
def mdnsGroup : String := "224.0.0.251"
def zeroNetwork : String := "0.0.0.0/8"
def linkLocalNetwork : String := "169.254.0.0/16"

def dhcpPorts : List String := ["67-68"]
def authPorts : List String := ["113"]
def dnsPorts : List String := ["53"]
def zeroPort : List String := ["0"]

/-- File sharing, base station administration and device discovery. -/
def macTcpPorts : List String := ["548", "5009"]
def macUdpPorts : List String := ["192"]
def mdnsPorts : List String := ["5353"]

/-- File sharing, service location and device discovery. -/
def windowsTcpPorts : List String := ["135-139", "445", "5000"]
def windowsUdpPorts : List String := ["135-139", "427", "445", "1900"]

def bootstrapIcmpTypes : List Int := [0, 3, 4, 11, 12, 13, 14]

/-- Web, file transfer, shells, desktops, messengers and mail. -/
def outboundTcpPorts : List String :=
  ["80", "443", "21", "22", "5900", "5222", "5190", "5050", "1863",
    "6667", "25", "26", "110", "995", "143", "993"]

/-- Tunnels, name service and time. -/
def outboundUdpPorts : List String := ["1194", "53", "123"]

/-- Sources that no packet from a public network bears. -/
def forgedSources : List (Purpose × String) :=
  [(.spoof192, "192.168.0.0/16"), (.spoof172, "172.16.0.0/12"), (.spoof10, "10.0.0.0/8"),
    (.spoofLoopback, loopbackNetwork)]

/-- Options of the internet protocol that are not let in. -/
def deniedOptions : List (Purpose × String) :=
  [(.ipoptRr, "rr"), (.ipoptTs, "ts"), (.ipoptLsrr, "lsrr"), (.ipoptSsrr, "ssrr")]

def one (address : String) : Endpoint := { addresses := [address] }

/-! ### Set 0: baseline -/

def divertRule (router : Router) : Draft :=
  { purpose := .natd, action := .divert, what := { via := [router.external] },
    target := some (.name "natd") }

/-- Limits on connection attempts, resets and control messages. -/
def limits : List Draft :=
  [ { purpose := .synLimit, action := .pipe, target := some (.id synPipe),
      what := { proto := "tcp", direction := .inbound, setup := true } },
    { purpose := .rstDelay, action := .pipe, target := some (.id rstDelayPipe),
      what := { proto := "tcp", direction := .inbound, tcpFlags := ["rst"] } },
    { purpose := .icmpInLimit, action := .pipe, target := some (.id icmpInPipe),
      what := { proto := "icmp", direction := .inbound } },
    { purpose := .icmpOutLimit, action := .pipe, target := some (.id icmpOutPipe),
      what := { proto := "icmp", direction := .outbound } } ]

/-- Packets that no honest host sends. -/
def abnormal : List Draft :=
  [ { purpose := .tcpSynFin, action := .deny, log := true,
      what := { proto := "tcp", tcpFlags := ["syn", "fin"] } },
    { purpose := .tcpSynRst, action := .deny, log := true,
      what := { proto := "tcp", tcpFlags := ["syn", "rst"] } },
    { purpose := .tcpSrcPort0, action := .deny, log := true,
      what := { proto := "tcp", src := .anyAt zeroPort } },
    { purpose := .tcpDstPort0, action := .deny, log := true,
      what := { proto := "tcp", dst := .anyAt zeroPort } },
    { purpose := .udpSrcPort0, action := .deny, log := true,
      what := { proto := "udp", src := .anyAt zeroPort } },
    { purpose := .udpDstPort0, action := .deny, log := true,
      what := { proto := "udp", dst := .anyAt zeroPort } } ]

def baseline (r : Registry) (o : Options) : List Draft :=
  [{ purpose := .loopback, action := .allow, what := { via := ["lo*"] } }]
    ++ o.router.toList.map divertRule
    ++ limits
    ++ deniedOptions.map (fun (purpose, option) =>
      { purpose, action := .deny, log := true,
        what := { ipOptions := some option, direction := .inbound, via := r.names } })
    ++ abnormal

/-! ### Set 1: routing -/

def routingRules (router : Router) : List Draft :=
  let net := one router.network.text
  [ { purpose := .routeFromClient, action := .allow,
      what := { src := net, direction := .inbound, recv := some router.client } },
    { purpose := .routeToClient, action := .allow,
      what := { dst := net, direction := .inbound, recv := some router.external } },
    { purpose := .forwardFromClient, action := .allow,
      what := { src := net, direction := .outbound, recv := some router.client,
                xmit := some router.external } },
    { purpose := .forwardToClient, action := .allow,
      what := { dst := net, direction := .outbound, recv := some router.external,
                xmit := some router.client } },
    { purpose := .clientToRouter, action := .allow,
      what := { src := net, dst := .me, direction := .inbound, recv := some router.client } },
    { purpose := .routerToClient, action := .allow,
      what := { src := .me, dst := net, direction := .outbound, xmit := some router.client } } ]

def routing (o : Options) : List Draft := o.router.toList.flatMap routingRules

/-! ### Set 2: state -/

def state (o : Options) : List Draft :=
  [ { purpose := .checkState, action := .checkState, what := {} },
    { purpose := .denyFragments, action := .deny, what := { frag := true }, log := o.logAll },
    { purpose := .resetEstablished, action := .reject, log := o.logAll,
      what := { proto := "tcp", established := true }, response := some .tcpReset } ]

/-! ### Sets 3 and 4: services of one kind of host -/

/-- Services stay closed on an interface that is not bound to a network. -/
def serviceRules (r : Registry) (wanted : HostKinds → Bool) (rules : Interface → List Draft) :
    List Draft :=
  (r.interfaces.filter fun i => wanted i.hosts && i.bounded).flatMap rules

def broadcasts (o : Options) (i : Interface) (multicast ssdp broadcast : Purpose) : List Draft :=
  let src := Endpoint.network i.network
  let via := [i.name]
  [ { purpose := multicast, action := .allow, index := some i.index, log := o.logAll,
      what := { src, dst := one multicastNetwork, via, keepState := true } },
    { purpose := ssdp, action := .allow, index := some i.index, log := o.logAll,
      what := { proto := "udp", src, dst := one ssdpAddress, via, keepState := true } },
    { purpose := broadcast, action := .allow, index := some i.index, log := o.logAll,
      what := { proto := "udp", src, dst := one broadcastAddress, via, keepState := true } } ]

/-- A service for the hosts of the interface's own network. -/
def service (o : Options) (i : Interface) (purpose : Purpose) (proto : String)
    (groups ports : List String) : Draft :=
  { purpose, action := .allow, index := some i.index, log := o.logAll,
    what := { proto, src := .network i.network,
              dst := { addresses := i.network.text :: groups, ports },
              via := [i.name], setup := proto == "tcp", keepState := true } }

def macRules (o : Options) (i : Interface) : List Draft :=
  [ service o i .macTcp "tcp" [] macTcpPorts,
    service o i .macUdp "udp" [] macUdpPorts,
    service o i .macMdns "udp" [mdnsGroup] mdnsPorts ]
    ++ broadcasts o i .macMulticast .macSsdp .macBroadcast

def macServices (r : Registry) (o : Options) : List Draft := serviceRules r (·.mac) (macRules o)

def windowsRules (o : Options) (i : Interface) : List Draft :=
  [ service o i .winTcp "tcp" [] windowsTcpPorts,
    service o i .winUdp "udp" [] windowsUdpPorts ]
    ++ broadcasts o i .winMulticast .winSsdp .winBroadcast

def windowsServices (r : Registry) (o : Options) : List Draft :=
  serviceRules r (·.windows) (windowsRules o)

/-! ### Set 5: trusted networks, containment of broadcasts -/

def trustedIcmp (o : Options) (i : Interface) : Draft :=
  { purpose := .trustedIcmp, action := .allow, index := some i.index, log := o.logAll,
    what := { proto := "icmp", src := .network i.network, dst := .network i.network,
              via := [i.name] } }

def contained (o : Options) (purpose : Purpose) (address : String) : Draft :=
  { purpose, action := .reject, log := o.logAll, response := some .hostProhibited,
    what := { dst := { addresses := [address], ports := dhcpPorts, portsNegate := true } } }

def trusted (r : Registry) (o : Options) : List Draft :=
  (r.interfaces.filter (·.trusted)).map (trustedIcmp o)
    ++ [ contained o .rejectMulticast multicastNetwork,
         contained o .rejectSsdp ssdpAddress,
         contained o .rejectBroadcast broadcastAddress,
         -- Service ports of networks that got no services above.
         { purpose := .denyServiceUdp, action := .deny, log := o.logAll,
           what := { proto := "udp", dst := .anyAt (macUdpPorts ++ windowsUdpPorts) } },
         { purpose := .rejectServiceTcp, action := .reject, log := o.logAll,
           what := { proto := "tcp", dst := .anyAt (macTcpPorts ++ windowsTcpPorts) },
           response := some .hostProhibited } ]

/-! ### Set 6: bootstrap -/

def bootstrap (r : Registry) (o : Options) : List Draft :=
  [ { purpose := .bootstrapIcmp, action := .allow, log := o.logAll,
      what := { proto := "icmp", icmpTypes := bootstrapIcmpTypes, via := r.names,
                keepState := true } },
    { purpose := .bootstrapDhcp, action := .allow, log := o.logAll,
      what := { proto := "udp", src := .anyAt dhcpPorts, dst := .anyAt dhcpPorts, via := r.names,
                keepState := true } } ]

/-! ### Set 7: inbound filter -/

def knownNetwork (i : Interface) : Draft :=
  { purpose := .knownNetwork, action := .skipto, index := some i.index,
    target := some (.id knownNetworkExit),
    what := { src := .network i.network, dst := .me, direction := .inbound, via := [i.name] } }

/-- The interfaces without a network of their own face the public one, trusted or not. -/
def publicNames (r : Registry) : List String := r.namesWhere fun i => !i.bounded

def forged (names : List String) : List Draft :=
  if names.isEmpty then []
  else forgedSources.map fun (purpose, source) =>
    { purpose, action := .deny, log := true,
      what := { src := one source, direction := .inbound, via := names } }

def inboundFilter (r : Registry) (o : Options) : List Draft :=
  let via := r.names
  [ { purpose := .reversePath, action := .deny, log := o.logAll,
      what := { badReversePath := true, direction := .inbound, via } },
    -- Until a lease is granted the host does not know its own address.
    { purpose := .notForMe, action := .reject, log := true, response := some .hostProhibited,
      what := { dst := { addresses := ["me"], negate := true, ports := dhcpPorts,
                         portsNegate := true },
                direction := .inbound, via } },
    { purpose := .notFromMe, action := .reject, log := true, response := some .hostProhibited,
      what := { src := { addresses := ["me"], negate := true }, direction := .outbound, via } } ]
    ++ (r.interfaces.filter (·.bounded)).map knownNetwork
    ++ forged (publicNames r)
    ++ [ { purpose := .rejectZeronet, action := .reject, log := o.logAll,
           response := some .hostProhibited,
           what := { src := one zeroNetwork, dst := .anyNotAt dhcpPorts, direction := .inbound } },
         { purpose := .rejectLinkLocal, action := .reject, log := o.logAll,
           response := some .hostProhibited,
           what := { src := one linkLocalNetwork, direction := .inbound } },
         { purpose := .rejectClassDe, action := .reject, log := o.logAll,
           response := some .hostProhibited,
           what := { src := one multicastNetwork, direction := .inbound } },
         -- Servers that ask back who connects get an answer.
         { purpose := .authReset, action := .reject, log := o.logAll, response := some .tcpReset,
           what := { proto := "tcp", dst := { addresses := ["me"], ports := authPorts },
                     direction := .inbound, setup := true } } ]

/-! ### Set 10: shaping -/

def shaping (r : Registry) : List Draft := (Shaping.plan r).flatMap Shaping.rules

/-! ### Set 11: outbound -/

def outbound (r : Registry) (o : Options) : List Draft :=
  let via := r.names
  [ { purpose := .outKnownTcp, action := .allow, log := o.logAll,
      what := { proto := "tcp", src := .me, dst := .anyAt outboundTcpPorts, setup := true,
                direction := .outbound, via, keepState := true } },
    { purpose := .outKnownUdp, action := .allow, log := o.logAll,
      what := { proto := "udp", src := .me, dst := .anyAt outboundUdpPorts,
                direction := .outbound, via, keepState := true } },
    { purpose := .outOtherTcp, action := .allow, log := true,
      what := { proto := "tcp", src := .me, setup := true, direction := .outbound, via,
                keepState := true } },
    { purpose := .outOtherIp, action := .allow, log := true,
      what := { src := .me, direction := .outbound, via, keepState := true } } ]

/-! ### Set 20: opened ports -/

/-- Opens ports of this host to the network of an interface; an empty list opens nothing. -/
def openTo (o : Options) (i : Interface) (purpose : Purpose) (proto : String)
    (ports : List String) : List Draft :=
  if ports.isEmpty then []
  else
    [{ purpose, action := .allow, index := some i.index, log := o.logAll,
       what := { proto, src := .network i.network, dst := { addresses := ["me"], ports },
                 direction := .inbound, via := [i.name], setup := proto == "tcp",
                 keepState := true } }]

/-- Trusted networks get all three tiers of ports, bounded ones two, and the public one. -/
def openPortsOf (o : Options) (i : Interface) : List Draft :=
  (if i.trusted then
    openTo o i .trustedTcp "tcp" o.ports.trustedTcp ++ openTo o i .trustedUdp "udp" o.ports.trustedUdp
  else [])
    ++ (if i.bounded || i.trusted then
      openTo o i .localTcp "tcp" o.ports.localTcp ++ openTo o i .localUdp "udp" o.ports.localUdp
    else [])
    ++ openTo o i .publicTcp "tcp" o.ports.publicTcp
    ++ openTo o i .publicUdp "udp" o.ports.publicUdp

def openPorts (r : Registry) (o : Options) : List Draft := r.interfaces.flatMap (openPortsOf o)

/-! ### Set 30: default deny -/

def defaultDeny (r : Registry) (o : Options) : List Draft :=
  let via := r.names
  [ { purpose := .rejectDnsFrom, action := .reject, log := o.logAll,
      response := some .hostProhibited,
      what := { proto := "udp", src := .anyAt dnsPorts, direction := .inbound, via } },
    { purpose := .rejectDnsTo, action := .reject, log := o.logAll,
      response := some .hostProhibited,
      what := { proto := "udp", dst := .anyAt dnsPorts, direction := .inbound, via } },
    { purpose := .rejectInUdp, action := .reject, log := o.logAll,
      response := some .filterProhibited, what := { proto := "udp", direction := .inbound, via } },
    { purpose := .rejectInTcp, action := .reject, log := true,
      response := some .filterProhibited, what := { proto := "tcp", direction := .inbound, via } },
    { purpose := .rejectIn, action := .reject, log := o.logAll,
      response := some .filterProhibited, what := { direction := .inbound, via } },
    { purpose := .rejectOut, action := .reject, log := true,
      response := some .filterProhibited, what := { direction := .outbound, via } },
    { purpose := .rejectAll, action := .reject, log := o.logAll,
      response := some .filterProhibited, what := {} } ]

/-- All rules of a policy, in the order in which they are emitted. -/
def drafts (r : Registry) (o : Options) : List Draft :=
  baseline r o ++ routing o ++ state o ++ macServices r o ++ windowsServices r o ++ trusted r o
    ++ bootstrap r o ++ inboundFilter r o ++ shaping r ++ outbound r o ++ openPorts r o
    ++ defaultDeny r o

end Firewall.Ruleset
