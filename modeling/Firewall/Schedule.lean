import Firewall.Malformed
import Firewall.Text.Numeral

/-!
Schedules of rates by the time of day. A schedule holds named profiles; a profile has rates of its
own and windows that override them for part of the day. Rates are in Kbit/s, and 0 leaves a pipe
unlimited.
-/

namespace Firewall

/-- A time of day, in microseconds since midnight. -/
structure TimeOfDay where
  micros : Nat
deriving DecidableEq, Repr

namespace TimeOfDay

def ofMinutes (minutes : Nat) : TimeOfDay := ⟨minutes * 60000000⟩

def hour (t : TimeOfDay) : Nat := t.micros / 3600000000

def minute (t : TimeOfDay) : Nat := t.micros / 60000000 % 60

def twoDigits (n : Nat) : String := if n < 10 then "0" ++ toString n else toString n

def text (t : TimeOfDay) : String := twoDigits t.hour ++ ":" ++ twoDigits t.minute

/-- A time in the form `HH:MM`, `HH:MM:SS` or `HH:MM:SS.ffffff`; a part that is missing counts as
zero. -/
def ofText (s : String) : TimeOfDay :=
  let number (s : String) : Nat := Text.ofDigits s.toList
  let parts := s.splitOn ":"
  let seconds := (parts.getD 2 "").splitOn "."
  let fraction := ((seconds.getD 1 "").toList ++ List.replicate 6 '0').take 6
  ⟨number (parts.getD 0 "") * 3600000000 + number (parts.getD 1 "") * 60000000
    + number (seconds.getD 0 "") * 1000000 + Text.ofDigits fraction⟩

end TimeOfDay

structure RateWindow where
  start : TimeOfDay
  stop : TimeOfDay
  inbound : Nat
  outbound : Nat
deriving DecidableEq, Repr

/-- A window reaches from its start up to its end, which it does not hold; one that ends before it
starts goes on past midnight. -/
def RateWindow.contains (w : RateWindow) (t : TimeOfDay) : Bool :=
  if w.start.micros ≤ w.stop.micros then
    w.start.micros ≤ t.micros && t.micros < w.stop.micros
  else w.start.micros ≤ t.micros || t.micros < w.stop.micros

structure Profile where
  name : String
  inbound : Nat := 0
  outbound : Nat := 0
  windows : List RateWindow := []
deriving DecidableEq, Repr

/-- The rates of the first window that holds the time, or else the profile's own. -/
def Profile.ratesAt (p : Profile) (t : TimeOfDay) : Nat × Nat :=
  match p.windows.find? (·.contains t) with
  | some w => (w.inbound, w.outbound)
  | none => (p.inbound, p.outbound)

structure Schedule where
  profiles : List Profile
deriving DecidableEq, Repr

namespace Schedule

def defaultProfile : String := "default"

def unlimited : Schedule := ⟨[{ name := defaultProfile }]⟩

def profile (s : Schedule) (name : String) : Except Malformed Profile :=
  match s.profiles.find? (·.name = name) with
  | some p => .ok p
  | none => .error (.unknownProfile name (s.profiles.map (·.name)))

/-! ### Reading -/

open Text

/-- The hour and the minute of a clock time: one or two digits, a colon and two digits. -/
def clock? (cs : List Char) : Option (Nat × Nat) :=
  let hour := cs.takeWhile isDigit
  match cs.dropWhile isDigit with
  | [':', a, b] =>
    if (hour.length = 1 ∨ hour.length = 2) ∧ isDigit a ∧ isDigit b then
      some (ofDigits hour, ofDigits [a, b])
    else none
  | _ => none

/-- A time of day: minutes since midnight as a number, or a clock time. -/
def readTime (place : String) (value : Data) : Except Malformed TimeOfDay := do
  let (hour, minute) ← match value with
    | .integer n => .ok (n.fdiv 60, n.fmod 60)
    | value => match clock? (trim value.plain.toList) with
      | some (hour, minute) => .ok ((hour : Int), (minute : Int))
      | none => .error (.time place value)
  if 0 ≤ hour ∧ hour < 24 ∧ 0 ≤ minute ∧ minute < 60 then
    return .ofMinutes (60 * hour + minute).toNat
  else throw (.timeOutOfRange place value)

def readRate (entries : List (String × Data)) (place key : String) : Except Malformed Nat :=
  match Data.valueAt entries key with
  | .integer n => if n < 0 then .error (.rate place key) else .ok n.toNat
  | _ => .error (.rate place key)

def readWindow (place : String) : Data → Except Malformed RateWindow
  | .mapping entries => do
    let start ← readTime place (Data.valueAt entries "start")
    let stop ← readTime place (Data.valueAt entries "end")
    let inbound ← readRate entries place "in"
    let outbound ← readRate entries place "out"
    return { start, stop, inbound, outbound }
  | _ => .error (.notMapping place)

/-- Windows with their places in the list, from `i` on. -/
def readWindows (place : String) (i : Nat) : List Data → Except Malformed (List RateWindow)
  | [] => .ok []
  | item :: rest => do
    let w ← readWindow (place ++ ".windows[" ++ toString i ++ "]") item
    let ws ← readWindows place (i + 1) rest
    return w :: ws

/-- What a value holds one by one: items, characters or keys; a blank value holds nothing. -/
def itemsOf (value : Data) : Except ReadFault (List Data) :=
  if value.isBlank then .ok []
  else match value with
    | .sequence items => .ok items
    | .text s => .ok (s.toList.map fun c => .text (String.singleton c))
    | .mapping entries => .ok (entries.map fun entry => .text entry.1)
    | _ => .error .notItems

/-- The rates that hold outside the windows; a blank value leaves both directions unlimited. -/
def readDefault (place : String) (value : Data) : Except Malformed (Nat × Nat) :=
  if value.isBlank then .ok (0, 0)
  else match value with
    | .mapping entries => do
      let inbound ← readRate entries place "in"
      let outbound ← readRate entries place "out"
      return (inbound, outbound)
    | _ => .error (.notMapping place)

def readProfile (name : String) : Data → Except ReadFault Profile
  | .mapping entries => do
    let place := "schedule." ++ name
    let unknown := unknownKeys ["default", "windows"] entries
    unless unknown.isEmpty do malformed (.unknownKeys place unknown)
    let (inbound, outbound) ←
      Malformed.lift (readDefault (place ++ ".default") (Data.valueAt entries "default"))
    let items ← itemsOf (Data.valueAt entries "windows")
    let windows ← Malformed.lift (readWindows place 0 items)
    return { name, inbound, outbound, windows }
  | _ => malformed (.notMapping ("schedule." ++ name))

def readProfiles : List (String × Data) → Except ReadFault (List Profile)
  | [] => .ok []
  | (name, value) :: rest => do
    let p ← readProfile name value
    let ps ← readProfiles rest
    return p :: ps

/-- The schedule that a mapping holds; an empty one leaves everything unlimited. -/
def ofEntries (entries : List (String × Data)) : Except ReadFault Schedule :=
  if entries.isEmpty then .ok unlimited else (readProfiles entries).map Schedule.mk

def ofData (value : Data) : Except ReadFault Schedule :=
  if value.isBlank then .ok unlimited
  else match value with
    | .mapping entries => ofEntries entries
    | _ => .error .notEntries

end Schedule
end Firewall
