namespace TabCompletion

/-- A binary floating-point number of 64 bits by its value. A finite one is the
mantissa times two to the exponent, with the mantissa below `2 ^ 53`; the exponent is
the least one possible from -1074 up. -/
inductive Double where
  | nan
  | infinite (negative : Bool)
  | finite (negative : Bool) (mantissa : Nat) (exponent : Int)
deriving DecidableEq, Repr

namespace Double

/-- The numerator and the denominator of a number times a power of its base. -/
def scaled (base n : Nat) (power : Int) : Nat × Nat :=
  if 0 ≤ power then (n * Nat.pow base power.toNat, 1) else (n, Nat.pow base power.natAbs)

/-- The quotient rounded to the nearest whole number, a half to the even one. -/
def roundDiv (numerator denominator : Nat) : Nat :=
  let quotient := numerator / denominator
  let rest := 2 * (numerator % denominator)
  if denominator < rest || (rest == denominator && quotient % 2 == 1) then quotient + 1 else quotient

/-- The number nearest to a positive fraction, an even mantissa on a tie. -/
def ofFraction (negative : Bool) (numerator denominator : Nat) : Double :=
  let rough : Int := (numerator.log2 : Int) - denominator.log2 - 52
  let quotientAt (exponent : Int) : Nat :=
    let (n, d) := scaled 2 numerator (-exponent)
    n / (denominator * d)
  let fitted := if quotientAt rough < Nat.pow 2 52 then rough - 1 else rough
  let exponent := max fitted (-1074)
  let (n, d) := scaled 2 numerator (-exponent)
  let mantissa := roundDiv n (denominator * d)
  let (mantissa, exponent) :=
    if mantissa = Nat.pow 2 53 then (Nat.pow 2 52, exponent + 1) else (mantissa, exponent)
  if 971 < exponent then .infinite negative else .finite negative mantissa exponent

/-- The number nearest to the digits times a power of ten. Powers so far out that
the answer is zero or infinite are settled by the count of digits alone. -/
def ofDecimal (negative : Bool) (digits : Nat) (power : Int) : Double :=
  let size : Int := (Nat.toDigits 10 digits).length + power
  if digits = 0 || size < -330 then .finite negative 0 (-1074)
  else if 310 < size then .infinite negative
  else
    let (numerator, denominator) := scaled 10 digits power
    ofFraction negative numerator denominator

/-- The whole number that a finite number is, if it is one. -/
def toInt? : Double → Option Int
  | .finite negative mantissa exponent =>
    let (n, d) := scaled 2 mantissa exponent
    if n % d = 0 then
      let size : Int := (n / d : Nat)
      some (if negative then -size else size)
    else none
  | _ => none

end Double

end TabCompletion
