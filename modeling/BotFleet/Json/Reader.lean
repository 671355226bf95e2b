import BotFleet.Json.Number

/-!
# Reading JSON

A text is read from left to right and the first thing wrong with it is reported: the text ends too
early, or it is malformed.

* `Json.readString`: the rest of a string, after its opening quotation mark;
* `Json.Place`, `Json.nextItem`, `Json.nextMember`: what stands next in a list or an object;
* `Json.maxDepth`: how deep lists and objects may be nested;
* `Json.readValue`: a value and the text after it;
* `Json.ofText?`: a whole text.
-/

namespace BotFleet.Json

def isBlank (c : Char) : Bool := c = ' ' || c = '\n' || c = '\t' || c = '\r'

def skipBlanks (cs : List Char) : List Char := cs.dropWhile isBlank

/-- The text after an expected word. -/
def expectWord : List Char → List Char → Except Flaw (List Char)
  | [], cs => .ok cs
  | _ :: _, [] => .error .ended
  | w :: word, c :: cs => if w = c then expectWord word cs else .error .malformed

/-! ## Strings -/

/-- The value of a hexadecimal digit. -/
def hexValue? (c : Char) : Option Nat :=
  if '0' ≤ c ∧ c ≤ '9' then some (c.toNat - '0'.toNat)
  else if 'a' ≤ c ∧ c ≤ 'f' then some (c.toNat - 'a'.toNat + 10)
  else if 'A' ≤ c ∧ c ≤ 'F' then some (c.toNat - 'A'.toNat + 10)
  else none

/-- A code unit of four hexadecimal digits. -/
def hexUnit? (a b c d : Char) : Option Nat := do
  return (((← hexValue? a) * 16 + (← hexValue? b)) * 16 + (← hexValue? c)) * 16 + (← hexValue? d)

/-- What is wrong with a text whose four digits cannot be read: four bytes have to be there. -/
def hexFlaw (cs : List Char) : Flaw :=
  if (cs.take 4).foldl (fun n c => n + c.utf8Size) 0 < 4 then .ended else .malformed

/-- The character of a one-letter escape. -/
def simpleEscape? (c : Char) : Option Char :=
  if c = '"' ∨ c = '\\' ∨ c = '/' then some c
  else if c = 'b' then some '\x08'
  else if c = 'f' then some '\x0c'
  else if c = 'n' then some '\n'
  else if c = 'r' then some '\r'
  else if c = 't' then some '\t'
  else none

def isHighSurrogate (n : Nat) : Bool := 0xD800 ≤ n && n ≤ 0xDBFF

def isLowSurrogate (n : Nat) : Bool := 0xDC00 ≤ n && n ≤ 0xDFFF

/-- The character that a pair of surrogates stands for. -/
def joinSurrogates (high low : Nat) : Char :=
  Char.ofNat (0x10000 + (high - 0xD800) * 0x400 + (low - 0xDC00))

/-- The rest of a string up to its closing quotation mark, after the characters `seen`, the last
of them first. A surrogate has to be the first half of a pair. -/
def readChars (seen : List Char) : List Char → Except Flaw (List Char × List Char)
  | [] => .error .ended
  | '"' :: rest => .ok (seen.reverse, rest)
  | '\\' :: 'u' :: a :: b :: c :: d :: rest =>
    match hexUnit? a b c d with
    | none => .error (hexFlaw (a :: b :: c :: d :: rest))
    | some unit =>
      if isLowSurrogate unit then .error .malformed
      else if isHighSurrogate unit then
        match rest with
        | '\\' :: 'u' :: e :: f :: g :: h :: rest =>
          match hexUnit? e f g h with
          | none => .error (hexFlaw (e :: f :: g :: h :: rest))
          | some low =>
            if isLowSurrogate low then readChars (joinSurrogates unit low :: seen) rest
            else .error .malformed
        | '\\' :: 'u' :: rest => .error (hexFlaw rest)
        | ['\\'] => .error .ended
        | [] => .error .ended
        | _ => .error .malformed
      else readChars (Char.ofNat unit :: seen) rest
  | '\\' :: 'u' :: rest => .error (hexFlaw rest)
  | ['\\'] => .error .ended
  | '\\' :: c :: rest =>
    match simpleEscape? c with
    | some e => readChars (e :: seen) rest
    | none => .error .malformed
  | c :: rest => if c.toNat < 0x20 then .error .malformed else readChars (c :: seen) rest

/-- The rest of a string, after its opening quotation mark. -/
def readString (cs : List Char) : Except Flaw (String × List Char) := do
  let (s, rest) ← readChars [] cs
  .ok (String.ofList s, rest)

/-! ## Lists and objects -/

/-- Where reading stands in a list or an object. -/
inductive Place (α : Type) where
  | closed (rest : List Char)
  | item (a : α) (rest : List Char)

/-- The text of the next item of a list, or the text after its closing bracket. -/
def nextItem (first : Bool) (cs : List Char) : Except Flaw (Place Unit) :=
  match skipBlanks cs with
  | [] => .error .ended
  | ']' :: rest => .ok (.closed rest)
  | c :: rest =>
    if first then .ok (.item () (c :: rest))
    else if c = ',' then
      match skipBlanks rest with
      | [] => .error .ended
      | ']' :: _ => .error .malformed
      | rest => .ok (.item () rest)
    else .error .malformed

/-- A name in an object. -/
def readName : List Char → Except Flaw (Place String)
  | [] => .error .ended
  | '"' :: rest => do
    let (name, rest) ← readString rest
    .ok (.item name rest)
  | _ => .error .malformed

/-- The name of the next member of an object, or the text after its closing bracket. -/
def nextMember (first : Bool) (cs : List Char) : Except Flaw (Place String) :=
  match skipBlanks cs with
  | [] => .error .ended
  | '\x7d' :: rest => .ok (.closed rest)
  | c :: rest =>
    if first then readName (c :: rest)
    else if c = ',' then readName (skipBlanks rest)
    else .error .malformed

/-- The text after the colon between a name and its value. -/
def expectColon (cs : List Char) : Except Flaw (List Char) :=
  match skipBlanks cs with
  | [] => .error .ended
  | ':' :: rest => .ok rest
  | _ => .error .malformed

/-! ## Values -/

/-- How deep lists and objects may be nested. -/
def maxDepth : Nat := 127

mutual

/-- A value at the start of a text, with at most `depth` brackets inside one another. -/
def readValueIn (depth : Nat) : Nat → List Char → Except Flaw (Json × List Char)
  | 0, _ => .error .ended
  | fuel + 1, cs =>
    match skipBlanks cs with
    | [] => .error .ended
    | 'n' :: rest => (expectWord ['u', 'l', 'l'] rest).map (.null, ·)
    | 't' :: rest => (expectWord ['r', 'u', 'e'] rest).map (.bool true, ·)
    | 'f' :: rest => (expectWord ['a', 'l', 's', 'e'] rest).map (.bool false, ·)
    | '"' :: rest => (readString rest).map fun (s, rest) => (.str s, rest)
    | '[' :: rest =>
      match depth with
      | 0 => .error .malformed
      | depth + 1 => (readItems depth true [] fuel rest).map fun (vs, rest) => (.arr vs, rest)
    | '\x7b' :: rest =>
      match depth with
      | 0 => .error .malformed
      | depth + 1 => (readMembers depth true [] fuel rest).map fun (ms, rest) => (.obj ms, rest)
    | c :: rest => if c = '-' ∨ c.isDigit then readNumber (c :: rest) else .error .malformed

/-- The items of a list up to its closing bracket, after the items `seen`, the last of them
first. -/
def readItems (depth : Nat) (first : Bool) (seen : List Json) :
    Nat → List Char → Except Flaw (List Json × List Char)
  | 0, _ => .error .ended
  | fuel + 1, cs => do
    match ← nextItem first cs with
    | .closed rest => .ok (seen.reverse, rest)
    | .item () rest =>
      let (v, rest) ← readValueIn depth fuel rest
      readItems depth false (v :: seen) fuel rest

/-- The members of an object up to its closing bracket, after the members `seen`, the last of them
first. -/
def readMembers (depth : Nat) (first : Bool) (seen : List (String × Json)) :
    Nat → List Char → Except Flaw (List (String × Json) × List Char)
  | 0, _ => .error .ended
  | fuel + 1, cs => do
    match ← nextMember first cs with
    | .closed rest => .ok (seen.reverse, rest)
    | .item name rest =>
      let rest ← expectColon rest
      let (v, rest) ← readValueIn depth fuel rest
      readMembers depth false ((name, v) :: seen) fuel rest

end

/-- Steps that are enough for a text: each bracket and each item takes two at most. -/
def stepsFor (cs : List Char) : Nat := 2 * cs.length + 2

/-- A value at the start of a text, with at most `depth` brackets inside one another. -/
def readValue (depth : Nat) (cs : List Char) : Except Flaw (Json × List Char) :=
  readValueIn depth (stepsFor cs) cs

/-- Only blanks may stand after a value. -/
def expectEnd (cs : List Char) : Except Flaw Unit :=
  if (skipBlanks cs).isEmpty then .ok () else .error .malformed

/-- The value of a whole text. -/
def ofText? (text : String) : Except Flaw Json := do
  let (v, rest) ← readValue maxDepth text.toList
  expectEnd rest
  .ok v

end BotFleet.Json
