import Firewall.Network
import Firewall.Rate

/-!
Interfaces and the tokens that declare them. A token names an interface and may add the rates of
its pipes, the kinds of hosts behind it and its network:

  en1{504,120}   en0:192.168.0.0/24   en0+mac+win::192.168.0.0:255.255.0.0

Two colons mark the network as trusted.
-/

namespace Firewall

/-- The kinds of hosts expected on a network. -/
structure HostKinds where
  mac : Bool := false
  windows : Bool := false
deriving DecidableEq, Repr

def HostKinds.text : HostKinds → String
  | ⟨true, true⟩ => "both"
  | ⟨true, false⟩ => "mac"
  | ⟨false, true⟩ => "win"
  | ⟨false, false⟩ => "unknown"

structure Rates where
  inbound : String
  outbound : String
deriving DecidableEq, Repr

/-- A declared interface. The index is its place in the registry, and -1 outside of one. -/
structure Interface where
  name : String
  network : Network := .any
  trusted : Bool := false
  hosts : HostKinds := {}
  rates : Option Rates := none
  index : Int := -1
deriving DecidableEq, Repr

namespace Interface

def bounded (i : Interface) : Bool := i.network.bounded

def shaped (i : Interface) : Bool := i.rates.isSome

def text (i : Interface) : String :=
  let rates := match i.rates with
    | none => ""
    | some r => " (in " ++ r.inbound ++ " out " ++ r.outbound ++ ")"
  i.name ++ " " ++ i.network.text ++ " trusted? " ++ (if i.trusted then "true" else "false")
    ++ " type " ++ i.hosts.text ++ rates

def isNameChar (c : Char) : Bool := c.isAlphanum || c = '_' || c = '.' || c = '*' || c = '-'

/-- A text without the line feed it may end in. -/
def withoutLineFeed (cs : List Char) : List Char :=
  if cs.getLast? = some '\n' then cs.dropLast else cs

/-- Whether a text is a name; a line feed may follow the name. -/
def isName (cs : List Char) : Bool :=
  let name := withoutLineFeed cs
  !name.isEmpty && name.all isNameChar

def isBrace (c : Char) : Bool := c = '\x7b' || c = '\x7d'

def splitRates? (cs : List Char) : Option (List Char × List Char × List Char) :=
  let inner (c : Char) : Bool := !isBrace c && c ≠ ','
  let name := cs.takeWhile (!isBrace ·)
  match cs.dropWhile (!isBrace ·) with
  | '\x7b' :: rest =>
    match rest.dropWhile inner with
    | ',' :: more =>
      if more.dropWhile inner = ['\x7d'] ∨ more.dropWhile inner = ['\x7d', '\n'] then
        some (name, rest.takeWhile inner, more.takeWhile inner)
      else none
    | _ => none
  | _ => none

/-- The name of an interface and its rates, from the text before the markers and the network. -/
def parseName (token : String) (cs : List Char) : Except Malformed (List Char × Option Rates) :=
  if cs.any isBrace then
    match splitRates? cs with
    | none => .error (.bandwidthSuffix token)
    | some (name, inText, outText) => do
      let inbound ← Rate.parse (String.ofList inText)
      let outbound ← Rate.parse (String.ofList outText)
      .ok (name, some { inbound, outbound })
  else .ok (cs, none)

/-- The markers behind a name, read from left to right. -/
def parseMarkers (token : String) : List (List Char) → Except Malformed HostKinds
  | [] => .ok {}
  | marker :: rest =>
    if marker = "mac".toList then (parseMarkers token rest).map ({ · with mac := true })
    else if marker = "win".toList then (parseMarkers token rest).map ({ · with windows := true })
    else .error (.unknownMarker (String.ofList marker) token)

/-- What follows the first colon: whether the network is trusted, and the network. -/
def parseNetwork : List Char → Except Malformed (Bool × Network)
  | [] => .ok (false, .any)
  | _ :: tail =>
    (Network.parse (String.ofList (tail.dropWhile (· = ':')))).map fun network =>
      (tail.head? = some ':', network)

def parse (text : String) : Except Malformed Interface := do
  let token := Text.strip text
  let head := token.toList.takeWhile (· ≠ ':')
  let tail := token.toList.dropWhile (· ≠ ':')
  let parts := Address.splitAll '+' head
  let (name, rates) ← parseName token (parts.headD [])
  if name.isEmpty then throw (.missingName token)
  if !isName name then throw (.invalidName (String.ofList name) token)
  let hosts ← parseMarkers token parts.tail
  let (trusted, network) ← parseNetwork tail
  return { name := String.ofList name, network, trusted, hosts, rates }

end Interface
end Firewall
