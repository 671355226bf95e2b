import BotFleet.Number.Double

/-!
# The shortest decimal of a double

Among all decimals that read back as a given double the shortest is written, and of several equally
short ones the nearest.

* `Double.readsBack`: the decimals in the interval of reals that round to a magnitude;
* `Double.shortestOn`: the point of a decimal grid that reads back, if there is one;
* `Double.shortest`: the digits and the exponent of the shortest decimal;
* `Layout`, `Layout.text`: how digits and exponent are written out.
-/

namespace BotFleet

/-- The decimal digits of a natural, the most significant first. -/
def digitsOf (n : Nat) : List Char := Nat.toDigits 10 n

namespace Double

/-- The fraction `n / d`, in units, lies in the interval of reals that round to a magnitude; its
ends belong to it iff the significand is even. -/
def readsBack (magnitude n d : Nat) : Bool :=
  let low := unitsOf (magnitude - 1) + unitsOf magnitude
  let high := unitsOf magnitude + unitsOf (magnitude + 1)
  if magnitude % 2 = 0 then low * d ≤ 2 * n && 2 * n ≤ high * d
  else low * d < 2 * n && 2 * n < high * d

/-- A power of ten as a fraction. -/
def tenTo (p : Int) : Nat × Nat := (Nat.pow 10 p.toNat, Nat.pow 10 (-p).toNat)

/-- The multiple of `10 ^ p` that reads back as a magnitude: of the two neighbours of the value the
nearer one that does, and at a tie the even one. -/
def shortestOn (magnitude : Nat) (p : Int) : Option Nat :=
  let (up, down) := tenTo p
  let value := unitsOf magnitude * down
  let step := one * up
  let floor := value / step
  let nearer := roundQuotient value step
  let other := if nearer = floor then floor + 1 else floor
  if readsBack magnitude (nearer * step) down then some nearer
  else if readsBack magnitude (other * step) down then some other
  else none

/-- The exponent `e` with `10 ^ e ≤ v < 10 ^ (e + 1)` for the value `v` of a nonzero magnitude. -/
def decimalExponent (magnitude : Nat) : Int :=
  let value := unitsOf magnitude
  if one ≤ value then ((digitsOf (value / one)).length : Int) - 1
  else - ((digitsOf ((one - 1) / value)).length : Int)

/-- A significand without trailing zeros, and the exponent of its last digit. -/
def stripZeros : Nat → Nat → Int → Nat × Int
  | 0, n, p => (n, p)
  | fuel + 1, n, p => if n % 10 = 0 then stripZeros fuel (n / 10) (p + 1) else (n, p)

/-- The first of the given digit counts with a decimal that reads back. -/
def shortestFrom (magnitude : Nat) (e : Int) (count : Nat) : Nat → Nat × Int
  | 0 => (unitsOf magnitude, 0)
  | fuel + 1 =>
    let p := e - count + 1
    match shortestOn magnitude p with
    | some n => stripZeros (count + 1) n p
    | none => shortestFrom magnitude e (count + 1) fuel

/-- The shortest decimal `n * 10 ^ p` that reads back as a nonzero finite magnitude. -/
def shortest (magnitude : Nat) : Nat × Int :=
  shortestFrom magnitude (decimalExponent magnitude) 1 17

end Double

/-- How a decimal is laid out: positional while the exponent of its first digit lies between the
bounds, and otherwise one digit, a point and the rest, with an exponent. -/
structure Layout where
  lowest : Int
  highest : Int
  mark : Char
  plus : Bool

namespace Layout

/-- Write the digits of a decimal whose first digit stands for `10 ^ e`; a positional number
always has a fraction. -/
def text (l : Layout) (digits : List Char) (e : Int) : List Char :=
  if l.lowest ≤ e ∧ e ≤ l.highest then
    if e < 0 then '0' :: '.' :: (List.replicate (-e - 1).toNat '0' ++ digits)
    else
      let whole := e.toNat + 1
      let padded := digits ++ List.replicate (whole - digits.length) '0'
      let fraction := padded.drop whole
      padded.take whole ++ '.' :: (if fraction.isEmpty then ['0'] else fraction)
  else
    let fraction := digits.drop 1
    digits.take 1 ++ (if fraction.isEmpty then [] else '.' :: fraction) ++
      l.mark :: (if e < 0 then ['-'] else if l.plus then ['+'] else []) ++ digitsOf e.natAbs

/-- The text of a finite double. -/
def double (l : Layout) (d : Double) : List Char :=
  let sign := if d.negative then ['-'] else []
  if d.magnitude = 0 then sign ++ ['0', '.', '0']
  else
    let (n, p) := Double.shortest d.magnitude
    let digits := digitsOf n
    sign ++ l.text digits (p + digits.length - 1)

end Layout

end BotFleet
