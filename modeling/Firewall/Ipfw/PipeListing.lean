import Firewall.Rate
import Firewall.Text.Lines

/-!
Listings of pipes. A pipe stands on a line of its own, which begins with its number and its
bandwidth:

  00101: 504.000 Kbit/s    0 ms   50 sl. 0 queues (1 buckets) droptail
-/

namespace Firewall.Ipfw

open Text

inductive ListedRate
  | unlimited
  | limited (text : String)
deriving DecidableEq, Repr

/-- A pipe of a listing: the digits of its number, and its bandwidth. -/
structure ListedPipe where
  digits : List Char
  rate : ListedRate
deriving DecidableEq, Repr

/-- A rate at the front of a text: digits and points, blanks, and a unit. -/
def leadingRate? (cs : List Char) : Option (List Char) :=
  let isNumeral (c : Char) : Bool := isDigit c || c = '.'
  let number := cs.takeWhile isNumeral
  let blanks := (cs.dropWhile isNumeral).takeWhile isBlank
  let rest := (cs.dropWhile isNumeral).dropWhile isBlank
  let multiplier := rest.take 1 |>.filter fun c => (Rate.multiplier? c).isSome
  let unit := rest.drop multiplier.length
  if number.isEmpty then none
  else if "bit/s".toList.isPrefixOf unit then
    some (number ++ blanks ++ multiplier ++ "bit/s".toList)
  else if "Byte/s".toList.isPrefixOf unit then
    some (number ++ blanks ++ multiplier ++ "Byte/s".toList)
  else none

/-- The digits of a number without zeros at the front; the last digit stays. -/
def withoutZeros (cs : List Char) : List Char :=
  match cs.dropWhile (· = '0') with
  | [] => cs.drop (cs.length - 1)
  | rest => rest

/-- The pipe that a line lists, if it lists one. -/
def listedPipe? (line : List Char) : Option ListedPipe :=
  let number := line.takeWhile isDigit
  match line.dropWhile isDigit with
  | ':' :: rest =>
    let text := rest.dropWhile isBlank
    if number.isEmpty || !(rest.head?.any isBlank) then none
    else if "unlimited".toList.isPrefixOf text then
      some { digits := withoutZeros number, rate := .unlimited }
    else (leadingRate? text).map fun rate =>
      { digits := withoutZeros number, rate := .limited (String.ofList rate) }
  | _ => none

/-- The bandwidth of a pipe in bit/s, 0 if it is not limited, by the first of the lines that list
it; nothing if none does. -/
def bandwidthIn (id : Int) : List (List Char) → Except ReadFault (Option Nat)
  | [] => .ok none
  | line :: rest =>
    match listedPipe? (trim line) with
    | none => bandwidthIn id rest
    | some p =>
      if digitLimit < p.digits.length then .error (.longNumeral p.digits.length)
      else if (ofDigits p.digits : Int) ≠ id then bandwidthIn id rest
      else match p.rate with
        | .unlimited => .ok (some 0)
        | .limited text => (Rate.toBits text).map some

def bandwidthOf (listing : String) (id : Int) : Except ReadFault (Option Nat) :=
  bandwidthIn id (lines listing.toList)

end Firewall.Ipfw
