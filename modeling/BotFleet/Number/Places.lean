import BotFleet.Number.Double
import BotFleet.Number.Shortest

/-!
# Two decimal places

* `Double.hundredths`: the exact value in hundredths, rounded to the nearest, a tie to the even one;
* `Double.twoPlaces`: the text with two places, the sign kept even before a zero.
-/

namespace BotFleet.Double

/-- The absolute value of a finite double in hundredths. -/
def hundredths (d : Double) : Nat := roundQuotient (d.units.natAbs * 100) one

/-- The text of a double with two decimal places. -/
def twoPlaces (d : Double) : String :=
  if d.isNaN then "NaN"
  else
    let sign := if d.negative then "-" else ""
    if d.isInfinite then sign ++ "inf"
    else
      let h := d.hundredths
      let fraction := digitsOf (h % 100)
      sign ++ String.ofList
        (digitsOf (h / 100) ++ '.' :: (List.replicate (2 - fraction.length) '0' ++ fraction))

end BotFleet.Double
