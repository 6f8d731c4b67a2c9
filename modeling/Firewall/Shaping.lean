import Firewall.Program

/-!
Traffic shaping. Every interface with rates has a pipe for each direction, and three weighted
queues nested in the outbound pipe; all their numbers derive from the index of the interface.
-/

namespace Firewall.Shaping

def privateNetworks : List String := ["192.168.0.0/16", "172.16.0.0/12", "10.0.0.0/8"]

def highWeight : Int := 7
def mediumWeight : Int := 5
def lowWeight : Int := 1

/-- Interactive traffic, name service and tunnels go to the medium queue. -/
def mediumTcpPorts : List String := ["22", "80", "443", "5900"]
def mediumUdpPorts : List String := ["53", "1194"]

/-- An empty acknowledgement fits into this many bytes. -/
def smallAckLength : String := "0-80"

def allocate (i : Interface) (rates : Rates) : InterfaceShaping :=
  { index := i.index
    name := i.name
    inbound := { id := inboundPipe i.index, bandwidth := some rates.inbound }
    outbound := { id := outboundPipe i.index, bandwidth := some rates.outbound }
    high := { id := highQueue i.index, pipe := outboundPipe i.index, weight := highWeight }
    medium := { id := mediumQueue i.index, pipe := outboundPipe i.index, weight := mediumWeight }
    low := { id := lowQueue i.index, pipe := outboundPipe i.index, weight := lowWeight } }

/-- The shaping of all interfaces with rates, in their order. -/
def plan (r : Registry) : List InterfaceShaping :=
  r.interfaces.filterMap fun i => i.rates.map (allocate i)

def forIndex? (shaping : List InterfaceShaping) (index : Int) : Option InterfaceShaping :=
  shaping.find? (·.index = index)

def announcement (s : InterfaceShaping) : Notice :=
  .log .debug ("shaping " ++ s.name ++ " (index " ++ toString s.index ++ "): pipe "
    ++ toString s.inbound.id ++ " in " ++ s.inbound.bandwidth.getD "None" ++ ", pipe "
    ++ toString s.outbound.id ++ " out " ++ s.outbound.bandwidth.getD "None")

/-- The rules that send the traffic of an interface through its pipes and queues. Traffic with
private networks is left alone, and so are connection attempts, which have a pipe of their own. -/
def rules (s : InterfaceShaping) : List Draft :=
  let via := [s.name]
  let index := some s.index
  let lan : Endpoint := { addresses := privateNetworks }
  [ { purpose := .shapeSkipPrivateOut, action := .skipto, index, target := some (.id shapingExit),
      what := { dst := lan, direction := .outbound, via } },
    { purpose := .shapeSkipPrivateIn, action := .skipto, index, target := some (.id shapingExit),
      what := { src := lan, direction := .inbound, via } },
    { purpose := .shapeInTcp, action := .pipe, index, target := some (.id s.inbound.id),
      what := { proto := "tcp", direction := .inbound, via, tcpFlags := ["!syn"] } },
    { purpose := .shapeInUdp, action := .pipe, index, target := some (.id s.inbound.id),
      what := { proto := "udp", direction := .inbound, via } },
    { purpose := .shapeHighAck, action := .queue, index, target := some (.id s.high.id),
      what := { proto := "tcp", direction := .outbound, via, tcpFlags := ["ack"],
                ipLength := some smallAckLength } },
    { purpose := .shapeMediumTcp, action := .queue, index, target := some (.id s.medium.id),
      what := { proto := "tcp", dst := .anyAt mediumTcpPorts, direction := .outbound, via,
                notSmallAck := true } },
    { purpose := .shapeMediumUdp, action := .queue, index, target := some (.id s.medium.id),
      what := { proto := "udp", dst := .anyAt mediumUdpPorts, direction := .outbound, via } },
    { purpose := .shapeLowTcp, action := .queue, index, target := some (.id s.low.id),
      what := { proto := "tcp", dst := .anyNotAt mediumTcpPorts, direction := .outbound, via,
                notSmallAck := true } },
    { purpose := .shapeLowUdp, action := .queue, index, target := some (.id s.low.id),
      what := { proto := "udp", dst := .anyNotAt mediumUdpPorts, direction := .outbound, via } } ]

end Firewall.Shaping
