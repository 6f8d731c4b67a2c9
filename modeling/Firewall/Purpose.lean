/-!
The purposes of the rules of a program. A rule has one purpose, and the purpose decides its set
and its number.
-/

namespace Firewall

inductive Purpose
  -- Set 0: baseline
  | loopback
  | natd
  | synLimit
  | rstDelay
  | icmpInLimit
  | icmpOutLimit
  | ipoptRr
  | ipoptTs
  | ipoptLsrr
  | ipoptSsrr
  | tcpSynFin
  | tcpSynRst
  | tcpSrcPort0
  | tcpDstPort0
  | udpSrcPort0
  | udpDstPort0
  -- Set 10: shaping
  | shapeSkipPrivateOut
  | shapeSkipPrivateIn
  | shapeInTcp
  | shapeInUdp
  | shapeHighAck
  | shapeMediumTcp
  | shapeMediumUdp
  | shapeLowTcp
  | shapeLowUdp
  -- Set 1: routing
  | routeFromClient
  | routeToClient
  | forwardFromClient
  | forwardToClient
  | clientToRouter
  | routerToClient
  -- Set 2: state
  | checkState
  | denyFragments
  | resetEstablished
  -- Set 3: mac services
  | macTcp
  | macUdp
  | macMdns
  | macMulticast
  | macSsdp
  | macBroadcast
  -- Set 4: windows services
  | winTcp
  | winUdp
  | winMulticast
  | winSsdp
  | winBroadcast
  -- Set 5: trusted icmp, broadcast containment
  | trustedIcmp
  | rejectMulticast
  | rejectSsdp
  | rejectBroadcast
  | denyServiceUdp
  | rejectServiceTcp
  -- Set 6: bootstrap
  | bootstrapIcmp
  | bootstrapDhcp
  -- Set 7: inbound filter
  | reversePath
  | notForMe
  | notFromMe
  | knownNetwork
  | spoof192
  | spoof172
  | spoof10
  | spoofLoopback
  | rejectZeronet
  | rejectLinkLocal
  | rejectClassDe
  | authReset
  -- Set 11: outbound
  | outKnownTcp
  | outKnownUdp
  | outOtherTcp
  | outOtherIp
  -- Set 20: operator ports
  | trustedTcp
  | trustedUdp
  | localTcp
  | localUdp
  | publicTcp
  | publicUdp
  -- Set 30: default deny
  | rejectDnsFrom
  | rejectDnsTo
  | rejectInUdp
  | rejectInTcp
  | rejectIn
  | rejectOut
  | rejectAll
deriving DecidableEq, Repr

namespace Purpose

def all : List Purpose := [
  .loopback, .natd, .synLimit, .rstDelay, .icmpInLimit, .icmpOutLimit, .ipoptRr, .ipoptTs,
  .ipoptLsrr, .ipoptSsrr, .tcpSynFin, .tcpSynRst, .tcpSrcPort0, .tcpDstPort0, .udpSrcPort0,
  .udpDstPort0, .shapeSkipPrivateOut, .shapeSkipPrivateIn, .shapeInTcp, .shapeInUdp,
  .shapeHighAck, .shapeMediumTcp, .shapeMediumUdp, .shapeLowTcp, .shapeLowUdp, .routeFromClient,
  .routeToClient, .forwardFromClient, .forwardToClient, .clientToRouter, .routerToClient,
  .checkState, .denyFragments, .resetEstablished, .macTcp, .macUdp, .macMdns, .macMulticast,
  .macSsdp, .macBroadcast, .winTcp, .winUdp, .winMulticast, .winSsdp, .winBroadcast,
  .trustedIcmp, .rejectMulticast, .rejectSsdp, .rejectBroadcast, .denyServiceUdp,
  .rejectServiceTcp, .bootstrapIcmp, .bootstrapDhcp, .reversePath, .notForMe, .notFromMe,
  .knownNetwork, .spoof192, .spoof172, .spoof10, .spoofLoopback, .rejectZeronet,
  .rejectLinkLocal, .rejectClassDe, .authReset, .outKnownTcp, .outKnownUdp, .outOtherTcp,
  .outOtherIp, .trustedTcp, .trustedUdp, .localTcp, .localUdp, .publicTcp, .publicUdp,
  .rejectDnsFrom, .rejectDnsTo, .rejectInUdp, .rejectInTcp, .rejectIn, .rejectOut, .rejectAll]

theorem mem_all (p : Purpose) : p ∈ all := by cases p <;> decide

def text : Purpose → String
  | .loopback => "loopback"
  | .natd => "divert to natd"
  | .synLimit => "rate limit tcp setup"
  | .rstDelay => "delay tcp reset"
  | .icmpInLimit => "rate limit inbound icmp"
  | .icmpOutLimit => "rate limit outbound icmp"
  | .ipoptRr => "deny record-route"
  | .ipoptTs => "deny timestamp"
  | .ipoptLsrr => "deny loose source route"
  | .ipoptSsrr => "deny strict source route"
  | .tcpSynFin => "deny syn+fin"
  | .tcpSynRst => "deny syn+rst"
  | .tcpSrcPort0 => "deny tcp from port 0"
  | .tcpDstPort0 => "deny tcp to port 0"
  | .udpSrcPort0 => "deny udp from port 0"
  | .udpDstPort0 => "deny udp to port 0"
  | .shapeSkipPrivateOut => "do not shape outbound private"
  | .shapeSkipPrivateIn => "do not shape inbound private"
  | .shapeInTcp => "shape inbound tcp"
  | .shapeInUdp => "shape inbound udp"
  | .shapeHighAck => "queue small acks"
  | .shapeMediumTcp => "queue interactive tcp"
  | .shapeMediumUdp => "queue interactive udp"
  | .shapeLowTcp => "queue bulk tcp"
  | .shapeLowUdp => "queue bulk udp"
  | .routeFromClient => "route from client network"
  | .routeToClient => "route to client network"
  | .forwardFromClient => "forward from client network"
  | .forwardToClient => "forward to client network"
  | .clientToRouter => "client network to router"
  | .routerToClient => "router to client network"
  | .checkState => "check state"
  | .denyFragments => "deny fragments"
  | .resetEstablished => "reset stale established"
  | .macTcp => "mac tcp services"
  | .macUdp => "mac udp services"
  | .macMdns => "rendezvous"
  | .macMulticast => "mac multicast"
  | .macSsdp => "mac ssdp"
  | .macBroadcast => "mac broadcast"
  | .winTcp => "windows tcp services"
  | .winUdp => "windows udp services"
  | .winMulticast => "windows multicast"
  | .winSsdp => "windows ssdp"
  | .winBroadcast => "windows broadcast"
  | .trustedIcmp => "trusted icmp"
  | .rejectMulticast => "reject multicast"
  | .rejectSsdp => "reject ssdp"
  | .rejectBroadcast => "reject broadcast"
  | .denyServiceUdp => "deny residual service udp"
  | .rejectServiceTcp => "reject residual service tcp"
  | .bootstrapIcmp => "allow icmp"
  | .bootstrapDhcp => "allow dhcp"
  | .reversePath => "deny reverse path failures"
  | .notForMe => "reject not for this host"
  | .notFromMe => "reject not from this host"
  | .knownNetwork => "skip known network"
  | .spoof192 => "deny 192.168/16 spoof"
  | .spoof172 => "deny 172.16/12 spoof"
  | .spoof10 => "deny 10/8 spoof"
  | .spoofLoopback => "deny loopback spoof"
  | .rejectZeronet => "reject 0/8"
  | .rejectLinkLocal => "reject link-local"
  | .rejectClassDe => "reject class d/e source"
  | .authReset => "reset auth"
  | .outKnownTcp => "allow known outbound tcp"
  | .outKnownUdp => "allow known outbound udp"
  | .outOtherTcp => "allow other outbound tcp"
  | .outOtherIp => "allow other outbound"
  | .trustedTcp => "trusted tcp ports"
  | .trustedUdp => "trusted udp ports"
  | .localTcp => "local tcp ports"
  | .localUdp => "local udp ports"
  | .publicTcp => "public tcp ports"
  | .publicUdp => "public udp ports"
  | .rejectDnsFrom => "reject dns responses"
  | .rejectDnsTo => "reject dns queries"
  | .rejectInUdp => "reject inbound udp"
  | .rejectInTcp => "reject inbound tcp"
  | .rejectIn => "reject inbound"
  | .rejectOut => "reject outbound"
  | .rejectAll => "reject all"

def name : Purpose → String
  | .loopback => "LOOPBACK"
  | .natd => "NATD"
  | .synLimit => "SYN_LIMIT"
  | .rstDelay => "RST_DELAY"
  | .icmpInLimit => "ICMP_IN_LIMIT"
  | .icmpOutLimit => "ICMP_OUT_LIMIT"
  | .ipoptRr => "IPOPT_RR"
  | .ipoptTs => "IPOPT_TS"
  | .ipoptLsrr => "IPOPT_LSRR"
  | .ipoptSsrr => "IPOPT_SSRR"
  | .tcpSynFin => "TCP_SYN_FIN"
  | .tcpSynRst => "TCP_SYN_RST"
  | .tcpSrcPort0 => "TCP_SRC_PORT_0"
  | .tcpDstPort0 => "TCP_DST_PORT_0"
  | .udpSrcPort0 => "UDP_SRC_PORT_0"
  | .udpDstPort0 => "UDP_DST_PORT_0"
  | .shapeSkipPrivateOut => "SHAPE_SKIP_PRIVATE_OUT"
  | .shapeSkipPrivateIn => "SHAPE_SKIP_PRIVATE_IN"
  | .shapeInTcp => "SHAPE_IN_TCP"
  | .shapeInUdp => "SHAPE_IN_UDP"
  | .shapeHighAck => "SHAPE_HIGH_ACK"
  | .shapeMediumTcp => "SHAPE_MEDIUM_TCP"
  | .shapeMediumUdp => "SHAPE_MEDIUM_UDP"
  | .shapeLowTcp => "SHAPE_LOW_TCP"
  | .shapeLowUdp => "SHAPE_LOW_UDP"
  | .routeFromClient => "ROUTE_FROM_CLIENT"
  | .routeToClient => "ROUTE_TO_CLIENT"
  | .forwardFromClient => "FORWARD_FROM_CLIENT"
  | .forwardToClient => "FORWARD_TO_CLIENT"
  | .clientToRouter => "CLIENT_TO_ROUTER"
  | .routerToClient => "ROUTER_TO_CLIENT"
  | .checkState => "CHECK_STATE"
  | .denyFragments => "DENY_FRAGMENTS"
  | .resetEstablished => "RESET_ESTABLISHED"
  | .macTcp => "MAC_TCP"
  | .macUdp => "MAC_UDP"
  | .macMdns => "MAC_MDNS"
  | .macMulticast => "MAC_MULTICAST"
  | .macSsdp => "MAC_SSDP"
  | .macBroadcast => "MAC_BROADCAST"
  | .winTcp => "WIN_TCP"
  | .winUdp => "WIN_UDP"
  | .winMulticast => "WIN_MULTICAST"
  | .winSsdp => "WIN_SSDP"
  | .winBroadcast => "WIN_BROADCAST"
  | .trustedIcmp => "TRUSTED_ICMP"
  | .rejectMulticast => "REJECT_MULTICAST"
  | .rejectSsdp => "REJECT_SSDP"
  | .rejectBroadcast => "REJECT_BROADCAST"
  | .denyServiceUdp => "DENY_SERVICE_UDP"
  | .rejectServiceTcp => "REJECT_SERVICE_TCP"
  | .bootstrapIcmp => "BOOTSTRAP_ICMP"
  | .bootstrapDhcp => "BOOTSTRAP_DHCP"
  | .reversePath => "REVERSE_PATH"
  | .notForMe => "NOT_FOR_ME"
  | .notFromMe => "NOT_FROM_ME"
  | .knownNetwork => "KNOWN_NETWORK"
  | .spoof192 => "SPOOF_192"
  | .spoof172 => "SPOOF_172"
  | .spoof10 => "SPOOF_10"
  | .spoofLoopback => "SPOOF_LOOPBACK"
  | .rejectZeronet => "REJECT_ZERONET"
  | .rejectLinkLocal => "REJECT_LINK_LOCAL"
  | .rejectClassDe => "REJECT_CLASS_DE"
  | .authReset => "AUTH_RESET"
  | .outKnownTcp => "OUT_KNOWN_TCP"
  | .outKnownUdp => "OUT_KNOWN_UDP"
  | .outOtherTcp => "OUT_OTHER_TCP"
  | .outOtherIp => "OUT_OTHER_IP"
  | .trustedTcp => "TRUSTED_TCP"
  | .trustedUdp => "TRUSTED_UDP"
  | .localTcp => "LOCAL_TCP"
  | .localUdp => "LOCAL_UDP"
  | .publicTcp => "PUBLIC_TCP"
  | .publicUdp => "PUBLIC_UDP"
  | .rejectDnsFrom => "REJECT_DNS_FROM"
  | .rejectDnsTo => "REJECT_DNS_TO"
  | .rejectInUdp => "REJECT_IN_UDP"
  | .rejectInTcp => "REJECT_IN_TCP"
  | .rejectIn => "REJECT_IN"
  | .rejectOut => "REJECT_OUT"
  | .rejectAll => "REJECT_ALL"

def ofText? (text : String) : Option Purpose := all.find? (·.text = text)

def ofName? (name : String) : Option Purpose := all.find? (·.name = name)

theorem ofText?_text (p : Purpose) : ofText? p.text = some p :=
  (by decide +kernel : ∀ p ∈ all, ofText? p.text = some p) p (mem_all p)

theorem ofName?_name (p : Purpose) : ofName? p.name = some p :=
  (by decide +kernel : ∀ p ∈ all, ofName? p.name = some p) p (mem_all p)

theorem text_ne_empty (p : Purpose) : p.text ≠ "" :=
  (by decide +kernel : ∀ p ∈ all, p.text ≠ "") p (mem_all p)

end Purpose
end Firewall
