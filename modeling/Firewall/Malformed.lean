import Firewall.Data
import Firewall.Text.Numeral

/-!
Faults in what the operator wrote, one cause each, and their wording.
-/

namespace Firewall

open Text.Quoted (quote)

inductive AddressFault
  | severalSlashes (text : String)
  | empty
  | octetCount (text : String)
  | emptyOctet (text : String)
  | nonDigit (octet text : String)
  | longOctet (octet text : String)
  | leadingZero (octet text : String)
  | largeOctet (octet : Nat) (text : String)
  | mask (text : String)
deriving DecidableEq, Repr

def AddressFault.message : AddressFault → String
  | .severalSlashes text => "Only one '/' permitted in " ++ quote text
  | .empty => "Address cannot be empty"
  | .octetCount text => "Expected 4 octets in " ++ quote text
  | .emptyOctet text => "Empty octet not permitted in " ++ quote text
  | .nonDigit octet text => "Only decimal digits permitted in " ++ quote octet ++ " in " ++ quote text
  | .longOctet octet text => "At most 3 characters permitted in " ++ quote octet ++ " in " ++ quote text
  | .leadingZero octet text =>
    "Leading zeros are not permitted in " ++ quote octet ++ " in " ++ quote text
  | .largeOctet octet text =>
    "Octet " ++ toString octet ++ " (> 255) not permitted in " ++ quote text
  | .mask text => quote text ++ " is not a valid netmask"

/-- What is wrong with a declaration: an interface token, a rate, a port list, a router or a
configuration. -/
inductive Malformed
  | bandwidth (text : String)
  | bandwidthSuffix (token : String)
  | negativeBandwidth (kbps : Int)
  | missingName (token : String)
  | invalidName (name token : String)
  | unknownMarker (marker token : String)
  | network (text : String) (fault : AddressFault)
  | tooManyInterfaces (limit : Nat)
  | port (item text : String)
  | portOutOfRange (number : Nat) (text : String)
  | portRange (item text : String)
  | router (text : String)
  | unboundedRouter (text : String)
  | topLevel (source : String)
  | unknownKeys (place : String) (keys : List String)
  | interfaces (source : String)
  | ports (source : String)
  | unknownPortList (source name : String)
  | boolean (key text : String)
  | schedule (source : String)
  | notMapping (place : String)
  | rate (place key : String)
  | time (place : String) (value : Data)
  | timeOutOfRange (place : String) (value : Data)
  | unknownProfile (name : String) (known : List String)

namespace Malformed

def isBandwidth : Malformed → Bool
  | .bandwidth _ | .bandwidthSuffix _ | .negativeBandwidth _ => true
  | _ => false

def isTooMany : Malformed → Bool
  | .tooManyInterfaces _ => true
  | _ => false

def message : Malformed → String
  | .bandwidth text => "invalid bandwidth " ++ quote text
  | .bandwidthSuffix token => "malformed bandwidth suffix in " ++ quote token
  | .negativeBandwidth kbps => "negative bandwidth " ++ toString kbps
  | .missingName token => "missing interface name in " ++ quote token
  | .invalidName name token => "invalid interface name " ++ quote name ++ " in " ++ quote token
  | .unknownMarker marker token => "unknown network type +" ++ marker ++ " in " ++ quote token
  | .network text fault => "invalid network " ++ quote text ++ ": " ++ fault.message
  | .tooManyInterfaces limit => "at most " ++ toString limit ++ " interfaces can be declared"
  | .port item text => "invalid port " ++ quote item ++ " in " ++ quote text
  | .portOutOfRange number text => "port " ++ toString number ++ " out of range in " ++ quote text
  | .portRange item text => "invalid port range " ++ quote item ++ " in " ++ quote text
  | .router text => "invalid router spec " ++ quote text ++ ", expected EXTERNAL,CLIENT@NET"
  | .unboundedRouter text => "router client network must be bounded: " ++ quote text
  | .topLevel source => source ++ ": top level must be a mapping"
  | .unknownKeys place keys => place ++ ": unknown keys: " ++ ", ".intercalate keys
  | .interfaces source => source ++ ": interfaces must be a list"
  | .ports source => source ++ ": ports must be a mapping"
  | .unknownPortList source name => source ++ ": unknown port list " ++ quote name
  | .boolean key text => key ++ ": expected a boolean, got " ++ quote text
  | .schedule source => source ++ ": schedule must be a mapping"
  | .notMapping place => place ++ ": must be a mapping"
  | .rate place key => place ++ ": " ++ key ++ " must be a non-negative integer (Kbit/s)"
  | .time place value => place ++ ": invalid time " ++ value.literal ++ ", expected HH:MM"
  | .timeOutOfRange place value => place ++ ": invalid time " ++ value.literal
  | .unknownProfile name known =>
    "unknown rate profile " ++ quote name ++ " (known: " ++ ", ".intercalate known ++ ")"

end Malformed

inductive ReadFault
  | malformed (cause : Malformed)
  | longNumeral (digits : Nat)
  /-- A number that cannot be written. -/
  | longNumber
  | infiniteRate
  | unknownPortList (name : String)
  /-- A single value where items were asked for. -/
  | notItems
  /-- A value other than a mapping where entries were asked for. -/
  | notEntries
  | noText

def ReadFault.message : ReadFault → String
  | .malformed cause => cause.message
  | .longNumeral digits =>
    "Exceeds the limit (4300 digits) for integer string conversion: value has "
      ++ toString digits ++ " digits; use sys.set_int_max_str_digits() to increase the limit"
  | .longNumber => Text.longNumber
  | .infiniteRate => "cannot convert float infinity to integer"
  | .unknownPortList name => quote name ++ " is not a valid PortOption"
  | .notItems => "not a sequence"
  | .notEntries => "not a mapping"
  | .noText => "not a text"

/-- A fault of the operator's text stops the reading of whatever contains it. -/
def malformed {α : Type} (cause : Malformed) : Except ReadFault α := .error (.malformed cause)

def Malformed.lift {α : Type} : Except Malformed α → Except ReadFault α
  | .ok a => .ok a
  | .error cause => .error (.malformed cause)

end Firewall
