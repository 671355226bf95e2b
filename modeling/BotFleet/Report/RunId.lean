import BotFleet.Json.Printer

/-!
# Run identifiers

A run is identified by 32 hexadecimal digits, written in lower case in groups of 8, 4, 4, 4 and 12.

* `RunId`, `RunId.text`;
* `RunId.ofRandom`: the identifier of random numbers;
* `RunId.ofText?`: reads the grouped form, bare, in braces or as a name of its scheme, and the 32
  digits without hyphens.
-/

namespace BotFleet

/-- An identifier of 32 hexadecimal digits. -/
structure RunId where
  digits : Vector (Fin 16) 32
deriving DecidableEq

namespace RunId

/-- The sizes of the groups of digits. -/
def groups : List Nat := [8, 4, 4, 4, 12]

/-- Cut a row of characters into groups with hyphens between them. -/
def hyphenate : List Nat → List Char → List Char
  | [], cs => cs
  | [_], cs => cs
  | n :: rest, cs => cs.take n ++ '-' :: hyphenate rest (cs.drop n)

/-- The grouped form. -/
def text (id : RunId) : String :=
  String.ofList (hyphenate groups (id.digits.toList.map fun d => Json.hexDigit d.val))

/-- The digit of a random identifier at some place, for a random number: two of the digits are
marked, so that it can be told from identifiers that are not random. -/
def randomDigit (place n : Nat) : Fin 16 :=
  Fin.ofNat 16 (if place = 12 then 4 else if place = 16 then 8 + n % 4 else n)

/-- The identifier of some random numbers. -/
def ofRandom (numbers : List Nat) : RunId :=
  ⟨.ofFn fun place => randomDigit place ((numbers.drop place).headD 0)⟩

/-- The digit that a character stands for, in either case. -/
def digit? (c : Char) : Option (Fin 16) :=
  if '0' ≤ c ∧ c ≤ '9' then some (Fin.ofNat 16 (c.toNat - '0'.toNat))
  else if 'a' ≤ c ∧ c ≤ 'f' then some (Fin.ofNat 16 (c.toNat - 'a'.toNat + 10))
  else if 'A' ≤ c ∧ c ≤ 'F' then some (Fin.ofNat 16 (c.toNat - 'A'.toNat + 10))
  else none

/-- The identifier of a row of digits, if there are 32. -/
def ofDigits? (cs : List Char) : Option RunId := do
  let ds ← cs.mapM digit?
  if h : ds.toArray.size = 32 then some ⟨⟨ds.toArray, h⟩⟩ else none

/-- The identifier of a grouped form. -/
def ofGrouped? (cs : List Char) : Option RunId :=
  let bare := cs.filter (· ≠ '-')
  if hyphenate groups bare = cs then ofDigits? bare else none

/-- What a name of the scheme of identifiers begins with, in any case. -/
def scheme : List Char := "urn:uuid:".toList

/-- Read an identifier in any of its forms. -/
def ofText? (text : String) : Option RunId :=
  let cs := text.toList
  if cs.length = 32 then ofDigits? cs
  else if cs.length = 38 ∧ cs.head? = some '\x7b' ∧ cs.getLast? = some '\x7d' then
    ofGrouped? ((cs.drop 1).take 36)
  else if (cs.take scheme.length).map Char.toLower = scheme then ofGrouped? (cs.drop scheme.length)
  else ofGrouped? cs

end RunId

end BotFleet
