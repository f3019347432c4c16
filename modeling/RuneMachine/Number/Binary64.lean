namespace RuneMachine

/-- A finite number is its sign and `mantissa * 2 ^ exponent`. The mantissa has at most 53 bits, and
fewer only if the exponent is the least. Zero has a sign. -/
inductive Binary64 where
  | finite (negative : Bool) (mantissa : Nat) (exponent : Int)
  | infinite (negative : Bool)
  deriving DecidableEq, Repr

namespace Binary64

def powerOfTwo (k : Int) : Nat := Nat.pow 2 k.toNat

def powerOfTen (k : Int) : Nat := Nat.pow 10 k.toNat

def leastExponent : Int := -1074

def greatestExponent : Int := 971

def mantissaEnd : Nat := Nat.pow 2 53

def mantissaStart : Nat := Nat.pow 2 52

def roundedQuotient (num den : Nat) : Nat :=
  let q := num / den
  let r := num % den
  if 2 * r < den then q
  else if den < 2 * r then q + 1
  else if q % 2 == 0 then q else q + 1

def zero (negative : Bool) : Binary64 := .finite negative 0 leastExponent

def leadingExponent (num den : Nat) : Int :=
  let guess : Int := (num.log2 : Int) - den.log2
  if num * powerOfTwo (-guess) < den * powerOfTwo guess then guess - 1 else guess

def ofQuotient (negative : Bool) (num den : Nat) : Binary64 :=
  if num == 0 then zero negative
  else
    let exponent := max (leadingExponent num den - 52) leastExponent
    let mantissa := roundedQuotient (num * powerOfTwo (-exponent)) (den * powerOfTwo exponent)
    let (mantissa, exponent) :=
      if mantissa == mantissaEnd then (mantissaStart, exponent + 1) else (mantissa, exponent)
    if greatestExponent < exponent then .infinite negative
    else .finite negative mantissa exponent

def ofDecimal (negative : Bool) (digits : Nat) (exponent : Int) : Binary64 :=
  let size : Int := (Nat.toDigits 10 digits).length + exponent
  if digits == 0 || size < -400 then zero negative
  else if 400 < size then .infinite negative
  else ofQuotient negative (digits * powerOfTen exponent) (powerOfTen (-exponent))

def isZero : Binary64 → Bool
  | .finite _ mantissa _ => mantissa == 0
  | .infinite _ => false

end Binary64

end RuneMachine
