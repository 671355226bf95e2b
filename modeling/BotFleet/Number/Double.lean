/-!
# Doubles

A double is kept as its 64-bit word, so that equality is equality of words and every operation is
exact arithmetic on naturals followed by one rounding.

* `Double`, `Double.negative`, `Double.magnitude`: the word and its two parts;
* `Double.units`: the value of a finite double in units of `2 ^ -1074`;
* `roundQuotient`: a quotient rounded to the nearest natural, a tie to the even one;
* `Double.nearest`: the double nearest to a fraction, the larger ones going to infinity;
* `Double.add`, `Double.mul`, `Double.div`: exact results rounded once.
-/

namespace BotFleet

/-- The quotient `n / d` rounded to the nearest natural, a tie to the even neighbour. -/
def roundQuotient (n d : Nat) : Nat :=
  let q := n / d
  let twice := 2 * (n % d)
  if twice < d then q
  else if d < twice then q + 1
  else if q % 2 = 0 then q else q + 1

/-- A double-precision number, given by its 64-bit word. -/
structure Double where
  bits : UInt64
deriving DecidableEq, Inhabited

namespace Double

/-- The word whose top bit alone is set. -/
def signBit : Nat := 0x8000000000000000

/-- How many doubles share a sign and an exponent. -/
def significands : Nat := 0x10000000000000

/-- The sign is the top bit of the word. -/
def negative (d : Double) : Bool := signBit ≤ d.bits.toNat

/-- The word without its sign bit; magnitudes are ordered as the absolute values they stand for. -/
def magnitude (d : Double) : Nat := d.bits.toNat % signBit

/-- The magnitude of infinity; larger magnitudes are not numbers. -/
def infinite : Nat := 2047 * significands

def isNaN (d : Double) : Bool := infinite < d.magnitude

def isInfinite (d : Double) : Bool := d.magnitude = infinite

def isFinite (d : Double) : Bool := d.magnitude < infinite

/-- Put a sign before a magnitude. -/
def signed (negative : Bool) (magnitude : Nat) : Double :=
  ⟨UInt64.ofNat (magnitude % signBit + if negative then signBit else 0)⟩

def nan : Double := signed false (infinite + significands / 2)

def zero : Double := signed false 0

def neg (d : Double) : Double := signed (!d.negative) d.magnitude

/-! ## Values in one unit -/

/-- The absolute value that a magnitude stands for, in units of `2 ^ -1074`. -/
def unitsOf (magnitude : Nat) : Nat :=
  let exponent := magnitude / significands
  let fraction := magnitude % significands
  if exponent = 0 then fraction else (fraction + significands) * Nat.pow 2 (exponent - 1)

/-- The number of units in one. -/
def one : Nat := Nat.pow 2 1074

/-- The value of a finite double in units of `2 ^ -1074`. -/
def units (d : Double) : Int :=
  if d.negative then - (unitsOf d.magnitude : Int) else unitsOf d.magnitude

/-! ## Rounding to a double -/

/-- The exponent of the grid of 53-bit significands on which `n / d` lies, in units. -/
def gridExponent (n d : Nat) : Nat :=
  let n := n * one
  let guess := n.log2 - d.log2 - 53
  if n < d * Nat.pow 2 (guess + 53) then guess else guess + 1

/-- The magnitude of the double nearest to `n / d`, a tie to the even significand. -/
def nearestMagnitude (n d : Nat) : Nat :=
  let e := gridExponent n d
  min infinite (e * significands + roundQuotient (n * one) (d * Nat.pow 2 e))

/-- The double nearest to the fraction `n / d`, with the given sign. -/
def nearest (negative : Bool) (n d : Nat) : Double :=
  signed negative (nearestMagnitude n d)

/-- The double nearest to a natural. -/
def ofNat (n : Nat) : Double := nearest false n 1

/-- The double nearest to an integer. -/
def ofInt (n : Int) : Double := nearest (n < 0) n.natAbs 1

/-! ## Arithmetic -/

/-- The sum, rounded once; a sum of zero is negative only if both terms are. -/
def add (a b : Double) : Double :=
  if a.isNaN || b.isNaN then nan
  else if a.isInfinite then
    if b.isInfinite && a.negative != b.negative then nan else a
  else if b.isInfinite then b
  else
    let sum := a.units + b.units
    if sum = 0 then signed (a.negative && b.negative) 0
    else nearest (sum < 0) sum.natAbs one

/-- The product of two finite doubles, rounded once. -/
def mul (a b : Double) : Double :=
  nearest (a.negative != b.negative) (a.units.natAbs * b.units.natAbs) (one * one)

/-- The quotient of two finite doubles, the second not zero, rounded once. -/
def div (a b : Double) : Double :=
  nearest (a.negative != b.negative) a.units.natAbs b.units.natAbs

/-- Equality of the numbers: the two zeros are equal, and nothing equals what is not a number. -/
def same (a b : Double) : Bool :=
  !a.isNaN && !b.isNaN &&
    (a.bits == b.bits || (a.magnitude == 0 && b.magnitude == 0))

instance : Add Double := ⟨add⟩
instance : Neg Double := ⟨neg⟩

end Double

end BotFleet
