import Firewall.Data

/-!
Data written as JSON. A number with a fraction or an exponent is read as a double, any other as a
whole number; keys keep their order.
-/

namespace Firewall.Data.Json

/-! ### Reading -/

def isSpace (c : Char) : Bool := c = ' ' || c = '\n' || c = '\r' || c = '\t'

def skip (cs : List Char) : List Char := cs.dropWhile isSpace

def hexValue? (c : Char) : Option Nat :=
  if '0' ≤ c ∧ c ≤ '9' then some (c.toNat - 48)
  else if 'a' ≤ c ∧ c ≤ 'f' then some (c.toNat - 87)
  else if 'A' ≤ c ∧ c ≤ 'F' then some (c.toNat - 55)
  else none

/-- A unit of 16 bits in four hexadecimal digits. -/
def unit? (a b c d : Char) : Option Nat := do
  return (((← hexValue? a) * 16 + (← hexValue? b)) * 16 + (← hexValue? c)) * 16 + (← hexValue? d)

/-- The character that an escaped unit begins, and whether a second unit is part of it. -/
def joinUnits (high : Nat) (low : Option Nat) : Char × Bool :=
  match low with
  | some low =>
    if 0xd800 ≤ high ∧ high < 0xdc00 ∧ 0xdc00 ≤ low ∧ low < 0xe000 then
      (Char.ofNat (0x10000 + (high - 0xd800) * 1024 + (low - 0xdc00)), true)
    else (Char.ofNat high, false)
  | none => (Char.ofNat high, false)

/-- The characters that stand for themselves behind a backslash, and those for controls. -/
def plainEscape? : Char → Option Char
  | '"' => some '"'
  | '\\' => some '\\'
  | '/' => some '/'
  | 'b' => some '\x08'
  | 'f' => some '\x0c'
  | 'n' => some '\n'
  | 'r' => some '\r'
  | 't' => some '\t'
  | _ => none

def textBody : Nat → List Char → List Char → Option (String × List Char)
  | 0, _, _ => none
  | fuel + 1, done, cs =>
    match cs with
    | '"' :: rest => some (String.ofList done.reverse, rest)
    | '\\' :: 'u' :: a :: b :: c :: d :: rest => do
      let high ← unit? a b c d
      let low := match rest with
        | '\\' :: 'u' :: a :: b :: c :: d :: _ => unit? a b c d
        | _ => none
      match joinUnits high low with
      | (x, true) => textBody fuel (x :: done) (rest.drop 6)
      | (x, false) => textBody fuel (x :: done) rest
    | '\\' :: e :: rest => do
      let x ← plainEscape? e
      textBody fuel (x :: done) rest
    | c :: rest => textBody fuel (c :: done) rest
    | [] => none

def decimalOf (cs : List Char) : Nat := cs.foldl (fun n c => 10 * n + (c.toNat - 48)) 0

def exponent (cs : List Char) : Int × List Char :=
  let signed (sign : Int) (cs : List Char) : Int × List Char :=
    (sign * decimalOf (cs.takeWhile Char.isDigit), cs.dropWhile Char.isDigit)
  match cs with
  | '-' :: rest => signed (-1) rest
  | '+' :: rest => signed 1 rest
  | rest => signed 1 rest

def number? (cs : List Char) : Option (Data × List Char) :=
  let negative := cs.head? = some '-'
  let cs := if negative then cs.drop 1 else cs
  let whole := cs.takeWhile Char.isDigit
  let cs := cs.dropWhile Char.isDigit
  let (fraction, rest) := match cs with
    | '.' :: more => (some (more.takeWhile Char.isDigit), more.dropWhile Char.isDigit)
    | _ => (none, cs)
  let (power, rest) := match rest with
    | 'e' :: more | 'E' :: more =>
      let (n, rest) := exponent more
      (some n, rest)
    | _ => (none, rest)
  if whole.isEmpty then none
  else match fraction, power with
    | none, none =>
      let n : Int := decimalOf whole
      some (.integer (if negative then -n else n), rest)
    | fraction, power =>
      let fraction := fraction.getD []
      some (.float negative (.ofDecimal (decimalOf (whole ++ fraction))
        (power.getD 0 - (fraction.length : Int))), rest)

/-- What is read next: a value, the rest of a sequence, or the rest of a mapping. -/
inductive Goal
  | value
  | items
  | entries
deriving DecidableEq

def readWithin : Nat → Goal → List Char → Option (Data × List Char)
  | 0, _, _ => none
  | fuel + 1, .value, cs =>
    match skip cs with
    | 'n' :: 'u' :: 'l' :: 'l' :: rest => some (.null, rest)
    | 't' :: 'r' :: 'u' :: 'e' :: rest => some (.bool true, rest)
    | 'f' :: 'a' :: 'l' :: 's' :: 'e' :: rest => some (.bool false, rest)
    | '"' :: rest => (textBody (rest.length + 1) [] rest).map fun (s, rest) => (.text s, rest)
    | '[' :: rest =>
      match skip rest with
      | ']' :: rest => some (.sequence [], rest)
      | rest => readWithin fuel .items rest
    | '\x7b' :: rest =>
      match skip rest with
      | '\x7d' :: rest => some (.mapping [], rest)
      | rest => readWithin fuel .entries rest
    | cs => number? cs
  | fuel + 1, .items, cs => do
    let (item, rest) ← readWithin fuel .value cs
    match skip rest with
    | ']' :: rest => some (.sequence [item], rest)
    | ',' :: rest =>
      match ← readWithin fuel .items rest with
      | (.sequence items, rest) => some (.sequence (item :: items), rest)
      | _ => none
    | _ => none
  | fuel + 1, .entries, cs => do
    match skip cs with
    | '"' :: rest =>
      let (key, rest) ← textBody (rest.length + 1) [] rest
      match skip rest with
      | ':' :: rest =>
        let (value, rest) ← readWithin fuel .value rest
        match skip rest with
        | '\x7d' :: rest => some (.mapping [(key, value)], rest)
        | ',' :: rest =>
          match ← readWithin fuel .entries rest with
          | (.mapping entries, rest) => some (.mapping ((key, value) :: entries), rest)
          | _ => none
        | _ => none
      | _ => none
    | _ => none

def read? (s : String) : Option Data :=
  let cs := s.toList
  match readWithin (2 * cs.length + 1) .value cs with
  | some (value, rest) => if (skip rest).isEmpty then some value else none
  | none => none

/-! ### Writing -/

def escape (c : Char) : String :=
  if c = '"' then "\\\""
  else if c = '\\' then "\\\\"
  else if c.toNat < 0x20 then "\\u" ++ String.ofList (Text.Quoted.hex 4 c.toNat)
  else String.singleton c

def quote (s : String) : String :=
  "\"" ++ s.foldl (fun done c => done ++ escape c) "" ++ "\""

mutual

def write : Data → String
  | .null => "null"
  | .bool b => if b then "true" else "false"
  | .integer n => toString n
  | .float negative size => (if negative then "-" else "") ++ size.text
  | .text s => quote s
  | .sequence items => "[" ++ ",".intercalate (writeItems items) ++ "]"
  | .mapping entries => "\x7b" ++ ",".intercalate (writeEntries entries) ++ "\x7d"

def writeItems : List Data → List String
  | [] => []
  | item :: rest => write item :: writeItems rest

def writeEntries : List (String × Data) → List String
  | [] => []
  | (key, value) :: rest => (quote key ++ ":" ++ write value) :: writeEntries rest

end

end Firewall.Data.Json
