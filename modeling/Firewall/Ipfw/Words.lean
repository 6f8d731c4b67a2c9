import Firewall.Program

/-!
The words of ipfw commands for rules, pipes, queues and sets: what follows `ipfw` on a command
line.
-/

namespace Firewall.Ipfw

def responseWords : Response → List String
  | .drop => ["deny"]
  | .tcpReset => ["reset"]
  | .hostUnreachable => ["unreach", "host"]
  | .hostProhibited => ["unreach", "host-prohib"]
  | .filterProhibited => ["unreach", "filter-prohib"]

def targetWord : Option Target → String
  | none => "None"
  | some t => t.text

def actionWords (r : Rule) : List String :=
  match r.action with
  | .reject => responseWords (r.response.getD .drop)
  | .skipto | .pipe | .queue | .divert => [r.action.text, targetWord r.target]
  | .allow | .deny | .checkState => [r.action.text]

def commaJoined (xs : List String) : String := ",".intercalate xs

def endpointWords (e : Endpoint) : List String :=
  (if e.negate then ["not"] else []) ++ [commaJoined e.addresses]
    ++ if e.ports.isEmpty then []
      else (if e.portsNegate then ["not"] else []) ++ [commaJoined e.ports]

def viaAlternatives : List String → List String
  | [] => []
  | [name] => ["via", name]
  | name :: rest => "via" :: name :: "or" :: viaAlternatives rest

def viaWords : List String → List String
  | [] => []
  | [name] => ["via", name]
  | names => "\x7b" :: viaAlternatives names ++ ["\x7d"]

/-- A word and what it is about, where there is something. -/
def optionWords (word : String) : Option String → List String
  | none => []
  | some s => if s.isEmpty then [] else [word, s]

def flagWord (word : String) (on : Bool) : List String := if on then [word] else []

def listWords (word : String) (xs : List String) : List String :=
  if xs.isEmpty then [] else [word, commaJoined xs]

/-- Larger than an empty acknowledgement, or none at all. -/
def notSmallAckWords : List String :=
  ["\x7b", "tcpflags", "!ack", "or", "iplen", "81-65535", "\x7d"]

def directionWords : Direction → List String
  | .both => []
  | d => [d.text]

def matchWords (m : Match) : List String :=
  [m.proto, "from"] ++ endpointWords m.src ++ ["to"] ++ endpointWords m.dst
    ++ directionWords m.direction
    ++ viaWords m.via ++ optionWords "recv" m.recv ++ optionWords "xmit" m.xmit
    ++ flagWord "setup" m.setup ++ flagWord "established" m.established ++ flagWord "frag" m.frag
    ++ listWords "tcpflags" m.tcpFlags ++ optionWords "ipoptions" m.ipOptions
    ++ listWords "icmptypes" (m.icmpTypes.map toString) ++ optionWords "iplen" m.ipLength
    ++ (if m.notSmallAck then notSmallAckWords else [])
    ++ (if m.badReversePath then ["not", "verrevpath"] else [])
    ++ flagWord "keep-state" m.keepState

/-- A rule that checks the state of connections says nothing more. -/
def ruleWords (r : Rule) : List String :=
  ["add", toString r.number, "set", toString r.set] ++ actionWords r
    ++ if r.action = .checkState then [] else flagWord "log" r.log ++ matchWords r.what

/-- A pipe that neither limits nor delays is configured as unlimited. -/
def pipeWords (p : Pipe) : List String :=
  let bandwidth := match p.bandwidth with
    | some b => if b.isEmpty then "0" else b
    | none => "0"
  ["pipe", toString p.id, "config"]
    ++ (if p.bandwidth.isSome || p.delay.isNone then ["bw", bandwidth] else [])
    ++ (p.delay.toList.flatMap fun ms => ["delay", toString ms])
    ++ (p.slots.toList.flatMap fun n => ["queue", toString n])

def queueWords (q : Queue) : List String :=
  ["queue", toString q.id, "config", "pipe", toString q.pipe, "weight", toString q.weight]

def setWords (set : Int) (enabled : Bool) : List String :=
  ["set", if enabled then "enable" else "disable", toString set]

def flushCommands : List (List String) := [["-f", "flush"], ["-f", "pipe", "flush"]]

end Firewall.Ipfw
