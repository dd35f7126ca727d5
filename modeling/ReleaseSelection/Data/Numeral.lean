import ReleaseSelection.Data
import ReleaseSelection.Text

/-!
# Numerals of documents

A numeral with neither fraction nor exponent is an integer when one of the ranges of 64 bits holds
it. Every other numeral is a float: its leading digits, as many as 64 bits hold, scaled by one
power of ten after another. `nearest` takes all of the digits into account.
-/

namespace ReleaseSelection

/-- The digits of a numeral, highest first. `exponent` is its sign, true for negative, and its
digits. -/
structure Numeral where
  negative : Bool
  whole : List Nat
  fraction : List Nat
  exponent : Option (Bool × List Nat)
  deriving DecidableEq, Repr

namespace Numeral

def maxSignificand : Nat := 18446744073709551615

/-- Takes digits while the significand holds them; the digits left over are counted. -/
def takeWhole (significand : Nat) : List Nat → Nat × Nat
  | [] => (significand, 0)
  | d :: ds =>
    if maxSignificand < significand * 10 + d then (significand, ds.length + 1)
    else takeWhole (significand * 10 + d) ds

/-- Takes digits while the significand holds them; the digits taken are counted. -/
def takeFraction (significand : Nat) : List Nat → Nat × Nat
  | [] => (significand, 0)
  | d :: ds =>
    if maxSignificand < significand * 10 + d then (significand, 0)
    else
      let rest := takeFraction (significand * 10 + d) ds
      (rest.1, rest.2 + 1)

def powerOfTen (n : Nat) : Float := Float.ofScientific 1 false n

/-- Multiplies or divides by powers of ten no larger than 10³⁰⁸. -/
def scale? (significand : Nat) (exponent : Int) : Option Float :=
  let x := Float.ofNat significand
  if 308 < exponent then if significand = 0 then some x else none
  else if 0 ≤ exponent then
    let y := x * powerOfTen exponent.toNat
    if y.isInf then none else some y
  else if -308 ≤ exponent then some (x / powerOfTen (-exponent).toNat)
  else if -616 ≤ exponent then
    some (x / powerOfTen 308 / powerOfTen (-exponent - 308).toNat)
  else some 0

def float? (n : Numeral) : Option Float :=
  let (significand, dropped) := takeWhole 0 n.whole
  let (significand, taken) := takeFraction significand n.fraction
  let shift : Int := dropped - taken
  let magnitude? :=
    match n.exponent with
    | none => scale? significand shift
    | some (down, ds) =>
      let e : Int := Text.ofDigits 10 ds
      if 2147483647 < e then if significand = 0 ∨ down then some 0 else none
      else scale? significand (if down then shift - e else shift + e)
  magnitude?.map fun x => if n.negative then -x else x

/-- The float at a numeral, an infinity beyond the range of floats. With its first digit more than
310 places before the point a numeral is out of range, and 350 places after it, it is zero. -/
def nearest (n : Numeral) : Float :=
  let digits := (n.whole ++ n.fraction).dropWhile (· == 0)
  let exponent : Int :=
    match n.exponent with
    | none => 0
    | some (down, ds) => if down then -(Text.ofDigits 10 ds : Int) else Text.ofDigits 10 ds
  let shift := exponent - n.fraction.length
  let size := digits.length + shift
  let magnitude : Float :=
    if digits.isEmpty || size < -350 then 0
    else if 310 < size then 1 / 0
    else Float.ofScientific (Text.ofDigits 10 digits) (shift < 0) shift.natAbs
  if n.negative then -magnitude else magnitude

def int? (n : Numeral) : Option Int :=
  if n.fraction.isEmpty && n.exponent.isNone then
    let m : Int := Text.ofDigits 10 n.whole
    if n.negative then if 0 < m ∧ m ≤ 9223372036854775808 then some (-m) else none
    else if m ≤ (maxSignificand : Int) then some m else none
  else none

def toData (n : Numeral) : Data :=
  match n.int? with
  | some i => .int i
  | none =>
    match n.float? with
    | some x => .float x
    | none => .unreadable

end Numeral

end ReleaseSelection
