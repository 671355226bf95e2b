import BotFleet.Number.Double

/-!
# What a routine leaves to chance

Each tick of a routine draws from a stream of random 64-bit words.

* `axisShift`, `drawShift`: by how much a bot turns away from where it stands, between `-1` and `1`
  on each axis;
* `chatLines`, `drawLine`: the lines that a bot says, each equally likely.
-/

namespace BotFleet

/-- The lines that a bot says. -/
def chatLines : Vector String 5 := #v[
  "Hello!",
  "How are you?",
  "This is a test message.",
  "Benchmarking the server.",
  "PrismarineJS is awesome!"]

/-- Half the number of different shifts. -/
def halfShifts : Nat := 0x8000000000000

/-- The shift of a word: its upper 52 bits, spread evenly from `-1` up to but excluding `1`. -/
def axisShift (w : UInt64) : Double :=
  let k : Int := (w.toNat / 0x1000 : Nat) - (halfShifts : Int)
  Double.nearest (k < 0) k.natAbs halfShifts

/-- The shifts on both horizontal axes and the words left over, if there are enough. -/
def drawShift : List UInt64 → Option ((Double × Double) × List UInt64)
  | w :: v :: rest => some ((axisShift w, axisShift v), rest)
  | _ => none

/-- The largest lower half of a product that is accepted. -/
def acceptedLow : Nat := 0x9fffffffffffffff

/-- The line of a word: the upper half of its product with the number of lines, unless the lower
half is so large that some lines would come up more often than others. -/
def lineOf? (w : UInt64) : Option (Fin 5) :=
  let product := w.toNat * 5
  if product % UInt64.size ≤ acceptedLow then some (Fin.ofNat 5 (product / UInt64.size)) else none

/-- The line that comes first. -/
def firstLine : Fin 5 := Fin.ofNat 5 0

/-- The line of the first accepted word, and the words after it. -/
def drawLine : List UInt64 → Option (Fin 5 × List UInt64)
  | [] => none
  | w :: rest =>
    match lineOf? w with
    | some i => some (i, rest)
    | none => drawLine rest

end BotFleet
