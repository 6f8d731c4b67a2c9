import Firewall.Options

/-!
Configurations. A configuration is a mapping that carries what a command line may say: interface
tokens, switches, opened ports, a router and a schedule of rates.
-/

namespace Firewall

structure Config where
  tokens : List String := []
  options : Options := {}
  schedule : Option (List (String × Data)) := none

namespace Config

def keys : List String :=
  ["interfaces", "debug", "log_all", "stealth", "blackhole", "router", "ports", "schedule"]

def lowerAscii (s : String) : String := String.ofList (s.toList.map Char.toLower)

/-- A switch; the usual words for yes and no may be quoted. -/
def switch (entries : List (String × Data)) (key : String) : Except Malformed Bool :=
  match Data.valueAt entries key with
  | .text s =>
    if ["true", "yes", "on", "1"].contains (lowerAscii s) then .ok true
    else if ["false", "no", "off", "0", ""].contains (lowerAscii s) then .ok false
    else .error (.boolean key s)
  | value => .ok (!value.isBlank)

/-- The text of a port list: the items of a sequence are joined by commas. -/
def portText : Data → String
  | .sequence items => ",".intercalate (items.map Data.plain)
  | value => value.plain

def readPorts (source : String) (ports : OpenPorts) :
    List (String × Data) → Except ReadFault OpenPorts
  | [] => .ok ports
  | (key, value) :: rest =>
    match PortList.ofKey? key with
    | none => malformed (.unknownPortList source key)
    | some l => do
      let ports ← ports.addText l (portText value)
      readPorts source ports rest

/-- The items of a sequence; a blank value holds none. -/
def readInterfaces (source : String) (value : Data) : Except Malformed (List String) :=
  if value.isBlank then .ok []
  else match value with
    | .sequence items => .ok (items.map Data.plain)
    | _ => .error (.interfaces source)

def readRouter (value : Data) : Except Malformed (Option Router) :=
  if value.isBlank then .ok none else (Router.parse value.plain).map some

/-- The entries of the `ports` mapping; a blank value holds none. -/
def portEntries (source : String) (value : Data) : Except Malformed (List (String × Data)) :=
  if value.isBlank then .ok []
  else match value with
    | .mapping entries => .ok entries
    | _ => .error (.ports source)

def readSchedule (source : String) : Data → Except Malformed (Option (List (String × Data)))
  | .null => .ok none
  | .mapping entries => .ok (some entries)
  | _ => .error (.schedule source)

/-- The configuration that a mapping holds; `source` names it in messages. -/
def ofEntries (source : String) (entries : List (String × Data)) : Except ReadFault Config := do
  let unknown := unknownKeys keys entries
  unless unknown.isEmpty do malformed (.unknownKeys source unknown)
  let tokens ← Malformed.lift (readInterfaces source (Data.valueAt entries "interfaces"))
  let router ← Malformed.lift (readRouter (Data.valueAt entries "router"))
  let ports ← Malformed.lift (portEntries source (Data.valueAt entries "ports"))
  let ports ← readPorts source {} ports
  let debug ← Malformed.lift (switch entries "debug")
  let logAll ← Malformed.lift (switch entries "log_all")
  let stealth ← Malformed.lift (switch entries "stealth")
  let blackhole ← Malformed.lift (switch entries "blackhole")
  let schedule ← Malformed.lift (readSchedule source (Data.valueAt entries "schedule"))
  return { tokens, options := { debug, logAll, stealth, blackhole, router, ports }, schedule }

def ofData (source : String) : Data → Except ReadFault Config
  | .mapping entries => ofEntries source entries
  | _ => malformed (.topLevel source)

/-- A configuration that was read from a file; a blank file is an empty mapping. -/
def ofFile (source : String) (data : Data) : Except ReadFault Config :=
  ofData source (if data.isBlank then .mapping [] else data)

end Config
end Firewall
