import Firewall.Malformed
import Firewall.Text.Numeral

/-!
Bandwidths. A bandwidth is a decimal number and perhaps a unit: `bit/s` or `Byte/s`, with `K` or
`M` before it for thousands or millions. Without a unit it counts bits per second; `0` means that
the pipe is not limited.
-/

namespace Firewall.Rate

open Text

structure Reading where
  whole : List Char
  fraction : List Char
  thousands : Nat
  bytes : Bool
deriving DecidableEq, Repr

/-- The factor that a letter before the unit stands for. -/
def multiplier? : Char → Option Nat
  | 'K' | 'k' => some 1000
  | 'M' | 'm' => some 1000000
  | _ => none

/-- What follows the number: nothing, or a unit that ends the text. -/
def unit? (cs : List Char) : Option (Nat × Bool) :=
  let kind? (cs : List Char) : Option Bool :=
    match cs with
    | 'b' :: 'i' :: 't' :: rest => if rest = "s/s".toList ∨ rest = "/s".toList then some false else none
    | c :: 'y' :: 't' :: 'e' :: rest =>
      if (c = 'B' ∨ c = 'b') ∧ (rest = "s/s".toList ∨ rest = "/s".toList) then some true else none
    | _ => none
  match cs with
  | [] => some (1, false)
  | c :: rest =>
    match multiplier? c with
    | some factor => (kind? rest).map fun bytes => (factor, bytes)
    | none => (kind? cs).map fun bytes => (1, bytes)

/-- The parts of a bandwidth without blanks around it. -/
def reading? (cs : List Char) : Option Reading :=
  let whole := cs.takeWhile isDigit
  let afterWhole := cs.dropWhile isDigit
  let (fraction, rest) := match afterWhole with
    | '.' :: more =>
      if (more.takeWhile isDigit).isEmpty then ([], afterWhole)
      else (more.takeWhile isDigit, more.dropWhile isDigit)
    | _ => ([], afterWhole)
  if whole.isEmpty then none
  else (unit? (rest.dropWhile isBlank)).map fun (thousands, bytes) =>
    { whole, fraction, thousands, bytes }

/-- The bandwidth in bits per second: each factor rounds to a double, and so does the number. -/
def Reading.bits? (r : Reading) : Option Nat :=
  let number := Binary64.ofDecimal (ofDigits (r.whole ++ r.fraction)) (-(r.fraction.length : Int))
  let scaled := number.scale r.thousands
  (if r.bytes then scaled.scale 8 else scaled).round?

def parse (text : String) : Except Malformed String :=
  let value := strip text
  if (reading? value.toList).isSome then .ok value else .error (.bandwidth text)

def toBits (text : String) : Except ReadFault Nat :=
  match reading? (strip text).toList with
  | none => malformed (.bandwidth text)
  | some r => match r.bits? with
    | none => .error .infiniteRate
    | some bits => .ok bits

def unlimited : String := "0"

def ofKbps (kbps : Int) : Except ReadFault String :=
  match decimal? kbps with
  | none => .error .longNumber
  | some number =>
    if kbps < 0 then malformed (.negativeBandwidth kbps)
    else if kbps = 0 then .ok unlimited
    else .ok (number ++ "Kbit/s")

end Firewall.Rate
