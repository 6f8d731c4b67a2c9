import Firewall.Options

/-!
Settings of the host that go with a program: kernel parameters, and services to start or stop.
-/

namespace Firewall

inductive Setting
  | number (n : Int)
  | text (s : String)
deriving DecidableEq, Repr

def Setting.shown : Setting → String
  | .number n => toString n
  | .text s => s

structure Sysctl where
  name : String
  value : Setting
  comment : String := ""
deriving DecidableEq, Repr

/-- A service that is to run or not to run once the program is installed. -/
structure ServiceToggle where
  service : String
  enable : Bool
deriving DecidableEq, Repr

namespace Host

def set (name : String) (n : Int) (comment : String := "") : Sysctl :=
  { name, value := .number n, comment }

def baseSysctls : List Sysctl := [
  set "net.inet.ip.fw.verbose" 0,
  set "net.inet.ip.fw.one_pass" 0 "reinject packets after a pipe",
  set "net.inet.ip.check_interface" 1 "packets must match their interface",
  set "net.inet.tcp.sendspace" 16000,
  set "net.inet.tcp.recvspace" 16000,
  set "net.inet.udp.recvspace" 42080,
  set "net.inet.raw.recvspace" 8192,
  set "net.local.dgram.maxdgram" 4196,
  set "net.local.stream.recvspace" 16000,
  set "net.local.stream.sendspace" 16000,
  set "net.local.dgram.recvspace" 8000,
  set "net.inet.tcp.rfc1323" 1 "RFC1323 high speed optimization",
  set "net.inet.icmp.icmplim" 1024,
  set "net.inet.icmp.drop_redirect" 1 "stop redirects",
  set "net.inet.icmp.log_redirect" 1,
  set "net.inet.ip.redirect" 0,
  set "net.inet.ip.sourceroute" 0 "stop source routing",
  set "net.inet.ip.accept_sourceroute" 0,
  set "net.inet.icmp.bmcastecho" 0 "no broadcast echo response",
  set "net.inet.icmp.maskrepl" 0,
  set "net.inet.tcp.delayed_ack" 1,
  set "net.inet.tcp.strict_rfc1948" 1 "strong TCP sequencing",
  set "kern.ipc.somaxconn" 1024 "socket queue defense against SYN floods",
  set "kern.ipc.maxsockbuf" 523288,
  set "net.link.ether.inet.max_age" 1200 "ARP cleanup"]

/-- The kernel parameters of a run: the host forwards packets only as a router. -/
def sysctls (o : Options) : List Sysctl :=
  let blackhole :=
    if o.blackhole then
      [set "net.inet.tcp.blackhole" 2 "blackhole against stealth scans",
        set "net.inet.udp.blackhole" 1]
    else [set "net.inet.tcp.blackhole" 0, set "net.inet.udp.blackhole" 0]
  baseSysctls ++ blackhole ++ [set "net.inet.ip.forwarding" (if o.router.isSome then 1 else 0)]

def sysctlCommand (s : Sysctl) : List String := ["sysctl", "-w", s.name ++ "=" ++ s.value.shown]

/-- The service that answers for names on the local network. -/
def mdnsService : String := "mDNSResponder"

def plist? (service : String) : Option String :=
  if service = mdnsService then
    some "/System/Library/LaunchDaemons/com.apple.mDNSResponder.plist"
  else none

structure UnknownService where
  service : String
deriving DecidableEq, Repr

def UnknownService.message (u : UnknownService) : String :=
  "unknown service " ++ Text.Quoted.quote u.service

def serviceCommand (t : ServiceToggle) : Except UnknownService (List String) :=
  match plist? t.service with
  | none => .error ⟨t.service⟩
  | some plist =>
    .ok (if t.enable then ["launchctl", "load", "-w", plist] else ["launchctl", "unload", plist])

end Host
end Firewall
