import BotFleet.Json.Value
import BotFleet.Number.Shortest

/-!
# Writing JSON

* `Json.escaped`, `Json.quoted`: strings between quotation marks;
* `Json.numberLayout`: how doubles are laid out;
* `Json.compact`: a value without any blanks;
* `Json.pretty`: a value with one item a line, two spaces deeper for each bracket.
-/

namespace BotFleet.Json

/-- The digit of a value below sixteen, in lower case. -/
def hexDigit (n : Nat) : Char := Nat.digitChar n

/-- A character inside a string: quotation marks, backslashes and control characters are escaped,
everything else stands for itself. -/
def escaped (c : Char) : List Char :=
  if c = '"' then ['\\', '"']
  else if c = '\\' then ['\\', '\\']
  else if c = '\x08' then ['\\', 'b']
  else if c = '\t' then ['\\', 't']
  else if c = '\n' then ['\\', 'n']
  else if c = '\x0c' then ['\\', 'f']
  else if c = '\r' then ['\\', 'r']
  else if c.toNat < 0x20 then
    ['\\', 'u', '0', '0', hexDigit (c.toNat / 16), hexDigit (c.toNat % 16)]
  else [c]

/-- A string between quotation marks. -/
def quoted (s : String) : List Char := '"' :: (s.toList.flatMap escaped ++ ['"'])

/-- Doubles are positional from `0.00001` up to sixteen digits before the point, and otherwise have
an exponent with its sign. -/
def numberLayout : Layout := ⟨-5, 15, 'e', true⟩

/-- A double; JSON has no text for infinities and what is not a number. -/
def ofDouble (d : Double) : List Char :=
  if d.isFinite then numberLayout.double d else ['n', 'u', 'l', 'l']

/-- A whole number. -/
def ofInt (n : Int) : List Char :=
  (if n < 0 then ['-'] else []) ++ digitsOf n.natAbs

/-! ## Without blanks -/

mutual

/-- The text of a value without blanks. -/
def compactChars : Json → List Char
  | .null => ['n', 'u', 'l', 'l']
  | .bool b => if b then ['t', 'r', 'u', 'e'] else ['f', 'a', 'l', 's', 'e']
  | .int n => ofInt n
  | .double d => ofDouble d
  | .str s => quoted s
  | .arr items => '[' :: (compactItems items ++ [']'])
  | .obj members => '\x7b' :: (compactMembers members ++ ['\x7d'])

def compactItems : List Json → List Char
  | [] => []
  | [v] => compactChars v
  | v :: w :: rest => compactChars v ++ ',' :: compactItems (w :: rest)

def compactMembers : List (String × Json) → List Char
  | [] => []
  | [(name, v)] => quoted name ++ ':' :: compactChars v
  | (name, v) :: m :: rest =>
    quoted name ++ ':' :: (compactChars v ++ ',' :: compactMembers (m :: rest))

end

def compact (v : Json) : String := String.ofList (compactChars v)

/-! ## One item a line -/

/-- A new line at a given depth. -/
def newline (depth : Nat) : List Char := '\n' :: List.replicate (2 * depth) ' '

mutual

/-- The text of a value at a given depth, with one item a line; an empty list or object stays on
its line. -/
def prettyChars (depth : Nat) : Json → List Char
  | .null => ['n', 'u', 'l', 'l']
  | .bool b => if b then ['t', 'r', 'u', 'e'] else ['f', 'a', 'l', 's', 'e']
  | .int n => ofInt n
  | .double d => ofDouble d
  | .str s => quoted s
  | .arr items =>
    if items.isEmpty then ['[', ']']
    else '[' :: (prettyItems (depth + 1) items ++ (newline depth ++ [']']))
  | .obj members =>
    if members.isEmpty then ['\x7b', '\x7d']
    else '\x7b' :: (prettyMembers (depth + 1) members ++ (newline depth ++ ['\x7d']))

def prettyItems (depth : Nat) : List Json → List Char
  | [] => []
  | [v] => newline depth ++ prettyChars depth v
  | v :: w :: rest =>
    newline depth ++ (prettyChars depth v ++ ',' :: prettyItems depth (w :: rest))

def prettyMembers (depth : Nat) : List (String × Json) → List Char
  | [] => []
  | [(name, v)] => newline depth ++ (quoted name ++ ':' :: ' ' :: prettyChars depth v)
  | (name, v) :: m :: rest =>
    newline depth ++
      (quoted name ++ ':' :: ' ' :: (prettyChars depth v ++ ',' :: prettyMembers depth (m :: rest)))

end

def pretty (v : Json) : String := String.ofList (prettyChars 0 v)

end BotFleet.Json
