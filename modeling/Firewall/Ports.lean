import Firewall.Interface

/-!
Lists of ports that the operator opens. A list is written `PORT,PORT-PORT,...`; there is one list
for each protocol and each tier of trust.
-/

namespace Firewall

namespace Ports

open Text

/-- The digits of a port, or of the first and the last port of a range. -/
def split? (item : List Char) : Option (List Char × Option (List Char)) :=
  let first := item.takeWhile isDigit
  if first.isEmpty then none
  else match item.dropWhile isDigit with
    | [] => some (first, none)
    | '-' :: last => if !last.isEmpty && last.all isDigit then some (first, some last) else none
    | _ => none

/-- The number of a port: not zero, and of 16 bits. -/
def number (text : String) (digits : List Char) : Except ReadFault Nat :=
  if digitLimit < digits.length then .error (.longNumeral digits.length)
  else
    let n := ofDigits digits
    if 0 < n ∧ n ≤ 65535 then .ok n else malformed (.portOutOfRange n text)

/-- Checks one item of the list `text`. -/
def check (text : String) (item : List Char) : Except ReadFault String :=
  let written := String.ofList item
  match split? item with
  | none => malformed (.port written text)
  | some (first, none) => do
    let _ ← number text first
    return written
  | some (first, some last) => do
    let low ← number text first
    let high ← number text last
    if high < low then malformed (.portRange written text) else return written

/-- The items of a comma-separated list, without the blanks around them. -/
def items (text : String) : List (List Char) := (Address.splitAll ',' text.toList).map trim

def parse (text : String) : Except ReadFault (List String) := (items text).mapM (check text)

end Ports

inductive PortList
  | trustedTcp
  | trustedUdp
  | localTcp
  | localUdp
  | publicTcp
  | publicUdp
deriving DecidableEq, Repr

namespace PortList

def all : List PortList :=
  [.trustedTcp, .trustedUdp, .localTcp, .localUdp, .publicTcp, .publicUdp]

def key : PortList → String
  | .trustedTcp => "trusted_tcp"
  | .trustedUdp => "trusted_udp"
  | .localTcp => "local_tcp"
  | .localUdp => "local_udp"
  | .publicTcp => "public_tcp"
  | .publicUdp => "public_udp"

def ofKey? (key : String) : Option PortList := all.find? (·.key = key)

theorem ofKey?_key (l : PortList) : ofKey? l.key = some l := by
  cases l <;> rfl

def option : PortList → String
  | .trustedTcp => "--trusted-tcp"
  | .trustedUdp => "--trusted-udp"
  | .localTcp => "--local-tcp"
  | .localUdp => "--local-udp"
  | .publicTcp => "--tcp"
  | .publicUdp => "--udp"

end PortList

/-- The ports that the operator opens to inbound traffic. -/
structure OpenPorts where
  trustedTcp : List String := []
  trustedUdp : List String := []
  localTcp : List String := []
  localUdp : List String := []
  publicTcp : List String := []
  publicUdp : List String := []
deriving DecidableEq, Repr

namespace OpenPorts

def get (p : OpenPorts) : PortList → List String
  | .trustedTcp => p.trustedTcp
  | .trustedUdp => p.trustedUdp
  | .localTcp => p.localTcp
  | .localUdp => p.localUdp
  | .publicTcp => p.publicTcp
  | .publicUdp => p.publicUdp

def append (p : OpenPorts) (l : PortList) (ports : List String) : OpenPorts :=
  match l with
  | .trustedTcp => { p with trustedTcp := p.trustedTcp ++ ports }
  | .trustedUdp => { p with trustedUdp := p.trustedUdp ++ ports }
  | .localTcp => { p with localTcp := p.localTcp ++ ports }
  | .localUdp => { p with localUdp := p.localUdp ++ ports }
  | .publicTcp => { p with publicTcp := p.publicTcp ++ ports }
  | .publicUdp => { p with publicUdp := p.publicUdp ++ ports }

theorem get_append (p : OpenPorts) (l m : PortList) (ports : List String) :
    (p.append l ports).get m = if m = l then p.get m ++ ports else p.get m := by
  cases l <;> cases m <;> rfl

def addText (p : OpenPorts) (l : PortList) (text : String) : Except ReadFault OpenPorts := do
  let ports ← Ports.parse text
  return p.append l ports

/-- Adds the ports of a written list to the list of a configuration key. -/
def addEntry (p : OpenPorts) (key text : String) : Except ReadFault OpenPorts :=
  match PortList.ofKey? key with
  | none => .error (.unknownPortList key)
  | some l => p.addText l text

def addEntries (p : OpenPorts) : List (String × String) → Except ReadFault OpenPorts
  | [] => .ok p
  | (key, text) :: rest => do
    let p ← p.addEntry key text
    p.addEntries rest

end OpenPorts
end Firewall
