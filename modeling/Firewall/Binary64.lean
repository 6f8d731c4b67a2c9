/-!
Non-negative numbers in double precision, computed exactly: rounding of a quotient to the nearest
number, a half to the even one, multiplication by a whole number, and the shortest decimal form
that reads back.
-/

namespace Firewall

/-- `a / b` rounded to the nearest whole number, a half to the even one. -/
def roundDiv (a b : Nat) : Nat :=
  let q := a / b
  let twice := 2 * (a % b)
  if twice < b then q else if b < twice then q + 1 else q + q % 2

@[simp] theorem roundDiv_mul (n d : Nat) (hd : 0 < d) : roundDiv (n * d) d = n := by
  simp [roundDiv, hd]

/-- A non-negative double: `mantissa * 2 ^ exponent`, or more than any number. -/
inductive Binary64
  | finite (mantissa : Nat) (exponent : Int)
  | infinite
deriving DecidableEq, Repr

namespace Binary64

def zero : Binary64 := .finite 0 (-1074)

/-- The power of `base` to an exponent that is not negative, and 1 below. -/
def power (base : Nat) (e : Int) : Nat := base.pow e.toNat

/-- `a * 2 ^ e / b` with the power on the side where it is whole. -/
def shifted (a b : Nat) (e : Int) : Nat × Nat := (a * power 2 e, b * power 2 (-e))

/-- The exponent whose grid gives `a / b` a mantissa of 53 bits; no grid is finer than the
smallest positive number. -/
def gridExponent (a b : Nat) : Int :=
  let k : Int := a.log2 - b.log2
  let (x, y) := shifted a b (-k)
  max (if y ≤ x then k - 52 else k - 53) (-1074)

def ofRatio (a b : Nat) : Binary64 :=
  if a = 0 then zero
  else
    let e := gridExponent a b
    let (x, y) := shifted a b (-e)
    let m := roundDiv x y
    let (m, e) := if m = power 2 53 then (power 2 52, e + 1) else (m, e)
    if 971 < e then .infinite else .finite m e

def num : Binary64 → Nat
  | .finite m e => m * power 2 e
  | .infinite => 0

def den : Binary64 → Nat
  | .finite _ e => power 2 (-e)
  | .infinite => 1

def isZero : Binary64 → Bool
  | .finite m _ => m == 0
  | .infinite => false

def scale (c : Nat) (x : Binary64) : Binary64 :=
  match x with
  | .infinite => .infinite
  | x => ofRatio (x.num * c) x.den

def round? : Binary64 → Option Nat
  | .infinite => none
  | x => some (roundDiv x.num x.den)

def ofDecimal (digits : Nat) (exponent : Int) : Binary64 :=
  ofRatio (digits * power 10 exponent) (power 10 (-exponent))

/-! ### The shortest decimal form -/

/-- The number of digits before the decimal point of a positive number; negative where zeros
follow the point. -/
def pointPosition (x : Binary64) : Int :=
  let p : Int := (Nat.toDigits 10 x.num).length - (Nat.toDigits 10 x.den).length
  if x.den * power 10 p ≤ x.num * power 10 (-p) then p + 1 else p

/-- The neighbours of a number on the grid of multiples of `10 ^ exponent` that read back as it,
nearest first. -/
def readingBack (x : Binary64) (exponent : Int) : List Nat :=
  let a := x.num * power 10 (-exponent)
  let b := x.den * power 10 exponent
  let below := a / b
  let ordered := if roundDiv a b = below then [below, below + 1] else [below + 1, below]
  ordered.filter fun digits => ofDecimal digits exponent == x

/-- The shortest decimal that reads back, as digits and a power of ten: the coarsest decimal grid
that holds one, and on it the one nearest to the number. -/
def shortest (x : Binary64) : Nat × Int :=
  let p := pointPosition x
  ((List.range 17).findSome? fun n =>
    let exponent := p - (n + 1 : Nat)
    (readingBack x exponent).head?.map fun digits => (digits, exponent)).getD (0, 0)

def significant (cs : List Char) : List Char := (cs.reverse.dropWhile (· == '0')).reverse

/-- Positional from 0.0001 up to below `10 ^ 16`, with at least one digit after the point; outside
that range with an exponent of at least two digits. -/
def layout (digits : List Char) (point : Int) : List Char :=
  if -4 < point ∧ point ≤ 16 then
    if point ≤ 0 then '0' :: '.' :: List.replicate (-point).toNat '0' ++ digits
    else if digits.length ≤ point.toNat then
      digits ++ List.replicate (point.toNat - digits.length) '0' ++ ['.', '0']
    else digits.take point.toNat ++ '.' :: digits.drop point.toNat
  else
    let fraction := if digits.length ≤ 1 then [] else '.' :: digits.drop 1
    let e := point - 1
    let size := Nat.toDigits 10 e.natAbs
    digits.take 1 ++ fraction ++ 'e' :: (if e < 0 then '-' else '+')
      :: (List.replicate (2 - size.length) '0' ++ size)

def text : Binary64 → String
  | .infinite => "inf"
  | x =>
    if x.isZero then "0.0"
    else
      let (digits, exponent) := shortest x
      let all := Nat.toDigits 10 digits
      String.ofList (layout (significant all) (all.length + exponent))

end Binary64
end Firewall
