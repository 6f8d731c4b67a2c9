import Firewall.Ports

/-!
The switches of a run, besides the declared interfaces.
-/

namespace Firewall

/-- This host routes the traffic of a client network from one interface over another. -/
structure Router where
  external : String
  client : String
  network : Block
deriving DecidableEq, Repr

namespace Router

open Text

/-- Characters of an interface name in a router text. -/
def isNameChar (c : Char) : Bool := c ≠ ',' && c ≠ '@' && !isBlank c

/-- The external interface, the client interface and the network of `EXTERNAL,CLIENT@NET`. -/
def split? (cs : List Char) : Option (List Char × List Char × List Char) :=
  let external := cs.takeWhile isNameChar
  match cs.dropWhile isNameChar with
  | ',' :: rest =>
    let client := rest.takeWhile isNameChar
    match rest.dropWhile isNameChar with
    | '@' :: network =>
      if external.isEmpty || client.isEmpty || network.isEmpty || network.any isBlank then none
      else some (external, client, network)
    | _ => none
  | _ => none

/-- The router that a text declares; its client network is a bounded one. -/
def parse (text : String) : Except Malformed Router :=
  match split? (trim text.toList) with
  | none => .error (.router text)
  | some (external, client, network) => do
    match ← Network.parse (String.ofList network) with
    | .any => .error (.unboundedRouter text)
    | .block b =>
      .ok { external := String.ofList external, client := String.ofList client, network := b }

end Router

structure Options where
  /-- Print the commands instead of changing the system. -/
  debug : Bool := false
  /-- Log every rejected packet, not just the suspicious ones. -/
  logAll : Bool := false
  /-- Drop silently instead of answering. -/
  stealth : Bool := false
  /-- Configure the kernel against stealth scans. -/
  blackhole : Bool := false
  router : Option Router := none
  ports : OpenPorts := {}
deriving DecidableEq, Repr

end Firewall
