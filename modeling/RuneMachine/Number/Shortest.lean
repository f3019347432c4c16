import RuneMachine.Number.Binary64
import RuneMachine.Text.Basic

namespace RuneMachine

namespace Binary64

def scaledUnits (exponent : Int) (place : Int) (x : Nat) : Nat :=
  x * powerOfTwo (exponent - 2) * powerOfTen (-place)

def scaledDigits (exponent : Int) (place : Int) (digits : Nat) : Nat :=
  digits * powerOfTen place * powerOfTwo (2 - exponent)

def readsBack (mantissa : Nat) (exponent : Int) (place : Int) (digits : Nat) : Bool :=
  let gap := if mantissa == mantissaStart && leastExponent < exponent then 1 else 2
  let low := scaledUnits exponent place (4 * mantissa - gap)
  let high := scaledUnits exponent place (4 * mantissa + 2)
  let x := scaledDigits exponent place digits
  if mantissa % 2 == 0 then low ≤ x && x ≤ high else low < x && x < high

def pointPlace (mantissa : Nat) (exponent : Int) : Int :=
  let num := mantissa * powerOfTwo exponent
  let den := powerOfTwo (-exponent)
  if den ≤ num then (Nat.toDigits 10 (num / den)).length
  else 1 - ((Nat.toDigits 10 ((den - 1) / num)).length : Int)

def atPlace? (mantissa : Nat) (exponent : Int) (place : Int) : Option Nat :=
  let num := scaledUnits exponent place (4 * mantissa)
  let den := scaledDigits exponent place 1
  let nearest := roundedQuotient num den
  let other := if nearest == num / den then nearest + 1 else num / den
  if readsBack mantissa exponent place nearest then some nearest
  else if readsBack mantissa exponent place other then some other
  else none

def shortestFrom (mantissa : Nat) (exponent : Int) : Nat → Int → Nat × Int
  | 0, place => (roundedQuotient (scaledUnits exponent place (4 * mantissa))
      (scaledDigits exponent place 1), place)
  | more + 1, place =>
    match atPlace? mantissa exponent place with
    | some digits => (digits, place)
    | none => shortestFrom mantissa exponent more (place - 1)

def shortest (mantissa : Nat) (exponent : Int) : Nat × Int :=
  shortestFrom mantissa exponent 16 (pointPlace mantissa exponent - 1)

def stripZeros : (limit n : Nat) → Nat × Nat
  | 0, n => (n, 0)
  | limit + 1, n =>
    if n % 10 == 0 && n != 0 then
      let (m, k) := stripZeros limit (n / 10)
      (m, k + 1)
    else (n, 0)

def decimalText (digits : Nat) (place : Int) : Text :=
  let (core, zeros) := stripZeros 17 digits
  let ds := Text.ofNat core
  let nought := '0'.toNat
  let point := '.'.toNat
  let lead : Int := if core == 0 then 0 else ds.length + place + zeros - 1
  if -4 ≤ lead && lead < 16 then
    if lead < 0 then
      [nought, point] ++ List.replicate (-lead - 1).toNat nought ++ ds
    else
      let whole := (lead + 1).toNat
      let fraction := ds.drop whole
      ds.take whole ++ List.replicate (whole - ds.length) nought ++ [point] ++
        (if fraction.isEmpty then [nought] else fraction)
  else
    let size := Text.ofNat lead.natAbs
    ds.take 1 ++ (if ds.length == 1 then [] else point :: ds.drop 1) ++
      ['e'.toNat, if lead < 0 then '-'.toNat else '+'.toNat] ++
      List.replicate (2 - size.length) nought ++ size

def signText (negative : Bool) : Text := if negative then ['-'.toNat] else []

def shown : Binary64 → Text
  | .infinite negative => signText negative ++ Text.ofString "inf"
  | .finite negative mantissa exponent =>
    let (digits, place) := if mantissa == 0 then (0, 0) else shortest mantissa exponent
    signText negative ++ decimalText digits place

end Binary64

end RuneMachine
