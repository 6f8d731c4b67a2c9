import Firewall.Malformed
import Firewall.Text.Numeral

/-!
Networks of IPv4 addresses. A network is `any` or the addresses that share their leading bits
with a given one; it is written `any`, `address/length`, `address/mask` or `address:mask`.
-/

namespace Firewall

/-- The addresses that agree with `address` in the first `length` of 32 bits; the other bits of
`address` are zero. -/
structure Block where
  address : Nat
  length : Nat
deriving DecidableEq, Repr

inductive Network
  | any
  | block (b : Block)
deriving DecidableEq, Repr

namespace Address

/-- One of the four numbers of an address, in ASCII digits. -/
def octet (text : String) (cs : List Char) : Except AddressFault Nat :=
  let written := String.ofList cs
  if cs.isEmpty then .error (.emptyOctet text)
  else if !cs.all Char.isDigit then .error (.nonDigit written text)
  else if 3 < cs.length then .error (.longOctet written text)
  else if cs.head? = some '0' ∧ cs ≠ ['0'] then .error (.leadingZero written text)
  else
    let n := cs.foldl (fun n c => 10 * n + (c.toNat - 48)) 0
    if 255 < n then .error (.largeOctet n text) else .ok n

def splitAll (c : Char) : List Char → List (List Char)
  | [] => [[]]
  | x :: rest =>
    if x = c then [] :: splitAll c rest
    else match splitAll c rest with
      | [] => [[x]]
      | part :: more => (x :: part) :: more

theorem splitAll_ne_nil (c : Char) (cs : List Char) : splitAll c cs ≠ [] := by
  cases cs with
  | nil => simp [splitAll]
  | cons x rest =>
    simp only [splitAll]
    split
    · simp
    · split <;> simp

def parse (cs : List Char) : Except AddressFault Nat :=
  let text := String.ofList cs
  if cs.isEmpty then .error .empty
  else match splitAll '.' cs with
    | [a, b, c, d] => do
      let a ← octet text a
      let b ← octet text b
      let c ← octet text c
      let d ← octet text d
      .ok (((a * 256 + b) * 256 + c) * 256 + d)
    | _ => .error (.octetCount text)

def dotted (a : Nat) : String :=
  toString (a / 16777216 % 256) ++ "." ++ toString (a / 65536 % 256) ++ "."
    ++ toString (a / 256 % 256) ++ "." ++ toString (a % 256)

end Address

namespace Block

/-- The number of addresses that share `length` leading bits. -/
def size (length : Nat) : Nat := Nat.pow 2 (32 - length)

def mask (length : Nat) : Nat := size 0 - size length

def containing (address length : Nat) : Block :=
  { address := address / size length * size length, length }

/-- The length of which `mask` is the netmask, or else its complement. -/
def lengthOfMask? (m : Nat) : Option Nat :=
  match (List.range 33).find? fun length => mask length = m with
  | some length => some length
  | none => (List.range 33).find? fun length => size length - 1 = m

/-- A length in ASCII digits, a netmask, or the complement of one. The digits of a length are
subject to the limit of numerals, leading zeros included. -/
def parseLength (cs : List Char) : Except AddressFault Nat :=
  let fault := AddressFault.mask (String.ofList cs)
  let n := cs.foldl (fun n c => 10 * n + (c.toNat - 48)) 0
  if !cs.isEmpty && cs.all Char.isDigit && cs.length ≤ Text.digitLimit && n ≤ 32 then .ok n
  else match Address.parse cs with
    | .error _ => .error fault
    | .ok m => match lengthOfMask? m with
      | some length => .ok length
      | none => .error fault

/-- An address, and after a slash a length or mask; an address alone is a block of its own. -/
def parse (cs : List Char) : Except AddressFault Block :=
  match Address.splitAll '/' cs with
  | [address] => do
    let a ← Address.parse address
    .ok (containing a 32)
  | [address, length] => do
    let a ← Address.parse address
    let l ← parseLength length
    .ok (containing a l)
  | _ => .error (.severalSlashes (String.ofList cs))

def text (b : Block) : String := Address.dotted b.address ++ "/" ++ toString b.length

def contains (b : Block) (a : Nat) : Bool := a / size b.length == b.address / size b.length

end Block

namespace Network

/-- The first colon stands for the slash before a mask. -/
def slashForColon : List Char → List Char
  | [] => []
  | c :: rest => if c = ':' then '/' :: rest else c :: slashForColon rest

/-- A network as the operator writes it; nothing at all means `any`. -/
def parse (text : String) : Except Malformed Network :=
  if text = "" ∨ text = "any" then .ok .any
  else match Block.parse (slashForColon text.toList) with
    | .ok b => .ok (.block b)
    | .error fault => .error (.network text fault)

def text : Network → String
  | .any => "any"
  | .block b => b.text

/-- A network other than `any` restricts the traffic of its interface. -/
def bounded : Network → Bool
  | .any => false
  | .block _ => true

end Network
end Firewall
