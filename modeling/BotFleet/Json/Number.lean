import BotFleet.Json.Value

/-!
# Reading JSON numbers

A number is read from left to right. Its leading digits are kept as a whole number as long as that
fits a 64-bit word; the later ones only move the point. The whole number is rounded to a double and
then scaled by a power of ten that is a double itself.

* `Flaw`: why a text cannot be read;
* `absorb`: the longest run of digits that fits a word;
* `Json.scale`: multiply or divide by a power of ten;
* `Json.readNumber`: a number and the text after it.
-/

namespace BotFleet

/-- Why a text is not JSON: it ends too early, or something else is wrong with it. -/
inductive Flaw where
  | ended
  | malformed
deriving DecidableEq, Inhabited

namespace Json

/-- The value of a decimal digit. -/
def digitValue (c : Char) : Nat := c.toNat - '0'.toNat

/-- The largest 64-bit word. -/
def wordMax : Nat := UInt64.size - 1

/-- Append digits to a whole number as long as it fits a word; the count is of the digits taken. -/
def absorb (n : Nat) : List Char → Nat × Nat
  | [] => (n, 0)
  | c :: rest =>
    let n' := 10 * n + digitValue c
    if n' ≤ wordMax then
      let (m, count) := absorb n' rest
      (m, count + 1)
    else (n, 0)

/-- The largest power of ten that one scaling step uses. -/
def maxStep : Nat := 308

/-- A power of ten, rounded to a double. -/
def powerOfTen (e : Nat) : Double := Double.ofNat (Nat.pow 10 e)

/-- Divide by `10 ^ e`, in steps of at most `10 ^ 308`. -/
def scaleDown (d : Double) (e : Nat) : Double :=
  if e ≤ maxStep then d.div (powerOfTen e)
  else if d.magnitude = 0 then d
  else scaleDown (d.div (powerOfTen maxStep)) (e - maxStep)
termination_by e
decreasing_by simp only [maxStep] at *; omega

/-- A whole number times `10 ^ e`, unless that is too large for a double. -/
def scale (n : Nat) (e : Int) : Option Double :=
  let d := Double.ofNat n
  if e < 0 then some (scaleDown d e.natAbs)
  else if n = 0 then some d
  else if maxStep < e.natAbs then none
  else
    let product := d.mul (powerOfTen e.natAbs)
    if product.isInfinite then none else some product

/-- The digits at the start of a text, at least one. -/
def readDigits (cs : List Char) : Except Flaw (List Char × List Char) :=
  match cs.takeWhile Char.isDigit, cs with
  | [], [] => .error .ended
  | [], _ => .error .malformed
  | ds, _ => .ok (ds, cs.dropWhile Char.isDigit)

/-- The whole part: a zero stands alone. -/
def readWhole (cs : List Char) : Except Flaw (List Char × List Char) := do
  let (ds, rest) ← readDigits cs
  if ds.head? = some '0' ∧ 1 < ds.length then .error .malformed else .ok (ds, rest)

/-- The digits after a point, if there is one. -/
def readFraction : List Char → Except Flaw (Option (List Char) × List Char)
  | '.' :: rest => do
    let (ds, rest) ← readDigits rest
    .ok (some ds, rest)
  | cs => .ok (none, cs)

/-- The value of a row of digits. -/
def valueOf (ds : List Char) : Nat := ds.foldl (fun n c => 10 * n + digitValue c) 0

/-- The exponent, if there is one. -/
def readExponent : List Char → Except Flaw (Option Int × List Char)
  | c :: rest =>
    if c = 'e' ∨ c = 'E' then do
      let (sign, rest) := match rest with
        | '+' :: rest => ((1 : Int), rest)
        | '-' :: rest => (-1, rest)
        | rest => (1, rest)
      let (ds, rest) ← readDigits rest
      .ok (some (sign * valueOf ds), rest)
    else .ok (none, c :: rest)
  | [] => .ok (none, [])

/-- The least negative word of 64 bits, without its sign. -/
def negativeWordMax : Nat := 0x8000000000000000

/-- A number from its parts: whole if it has neither fraction nor exponent and fits a word, or its
negative a signed word. -/
def numberOf (negative : Bool) (whole : List Char) (fraction : Option (List Char))
    (exponent : Option Int) : Option Json :=
  let (n, taken) := absorb 0 whole
  let dropped := whole.length - taken
  if fraction.isNone ∧ exponent.isNone ∧ dropped = 0 ∧ (negative → 0 < n ∧ n ≤ negativeWordMax) then
    some (.int (if negative then - (n : Int) else n))
  else
    let (n, places) := absorb n (fraction.getD [])
    (scale n (exponent.getD 0 + dropped - places)).map fun d =>
      .double (if negative then -d else d)

/-- A number at the start of a text. -/
def readNumber (cs : List Char) : Except Flaw (Json × List Char) := do
  let (negative, cs) := match cs with
    | '-' :: cs => (true, cs)
    | cs => (false, cs)
  let (whole, cs) ← readWhole cs
  let (fraction, cs) ← readFraction cs
  let (exponent, cs) ← readExponent cs
  match numberOf negative whole fraction exponent with
  | some v => .ok (v, cs)
  | none => .error .malformed

end Json

end BotFleet
