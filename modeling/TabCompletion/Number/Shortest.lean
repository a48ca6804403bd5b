import TabCompletion.Number.Double
import TabCompletion.Text.Basic

namespace TabCompletion.Double

/-- The count of digits before the decimal point of a positive fraction; it is zero or
negative where zeros follow the point. No finite number is below `10 ^ -400`. -/
def pointPlace (numerator denominator : Nat) : Int :=
  (Nat.toDigits 10 (numerator * Nat.pow 10 400 / denominator)).length - 400

/-- The decimal of the given count of digits that reads back as the number: of the two
neighbours on that grid the nearer one, or the other when it alone reads back. -/
def decimalWith? (mantissa : Nat) (exponent : Int) (count : Nat) : Option (Nat × Int) :=
  let (numerator, denominator) := scaled 2 mantissa exponent
  let power := pointPlace numerator denominator - count
  let (n, d) := scaled 10 numerator (-power)
  let denominator := denominator * d
  let below := n / denominator
  let nearest := roundDiv n denominator
  let other := if nearest = below then below + 1 else below
  let readsBack (digits : Nat) : Bool :=
    ofDecimal false digits power = .finite false mantissa exponent
  if readsBack nearest then some (nearest, power)
  else if readsBack other then some (other, power)
  else none

/-- The digits and the power of ten of the shortest decimal that reads back. Seventeen
digits always do. -/
def shortest (mantissa : Nat) (exponent : Int) : Nat × Int :=
  ((List.range 17).findSome? fun count => decimalWith? mantissa exponent (count + 1)).getD (0, 0)

/-- The digits without zeros at the end, and the place of the decimal point in them. -/
def significantDigits (digits : Nat) (power : Int) : Text × Int :=
  let written := Text.ofNat digits
  (written.dropFinal '0', written.length + power)

/-- Written out from `10 ^ -4` to below `10 ^ 16`, always with a point and a digit after it;
other numbers have a signed exponent of two digits or more. -/
def finiteText (negative : Bool) (mantissa : Nat) (exponent : Int) : Text :=
  let sign : Text := if negative then "-" else ""
  if mantissa = 0 then sign ++ "0.0"
  else
    let (digits, power) := shortest mantissa exponent
    let (digits, place) := significantDigits digits power
    if -4 < place && place ≤ 0 then
      sign ++ "0." ++ List.replicate place.natAbs '0' ++ digits
    else if 0 < place && place ≤ 16 then
      let whole := digits.take place.toNat
      let fraction := digits.drop place.toNat
      sign ++ whole ++ List.replicate (place.toNat - whole.length) '0' ++ "." ++
        (if fraction.isEmpty then ['0'] else fraction)
    else
      let tail := digits.drop 1
      let written := Text.ofNat (place - 1).natAbs
      sign ++ digits.take 1 ++ (if tail.isEmpty then [] else '.' :: tail) ++
        (if place - 1 < 0 then "e-" else "e+") ++
        List.replicate (2 - written.length) '0' ++ written

def text : Double → Text
  | .nan => "nan"
  | .infinite negative => if negative then "-inf" else "inf"
  | .finite negative mantissa exponent => finiteText negative mantissa exponent

end TabCompletion.Double
