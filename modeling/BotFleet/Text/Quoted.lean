import BotFleet.Text.Printable

/-!
# Quoted text in messages

A text quoted inside a message shows quotation marks, backslashes and unprintable characters by
escapes.

* `Text.shown`: one character inside quotation marks;
* `Text.quoted`: a text between quotation marks.
-/

namespace BotFleet.Text

/-- A character inside quotation marks: what cannot be seen is written by its code point. -/
def shown (c : Char) : List Char :=
  if c = '"' then ['\\', '"']
  else if c = '\\' then ['\\', '\\']
  else if c = '\n' then ['\\', 'n']
  else if c = '\r' then ['\\', 'r']
  else if c = '\t' then ['\\', 't']
  else if c = '\x00' then ['\\', '0']
  else if isPrintable c then [c]
  else '\\' :: 'u' :: '\x7b' :: (Nat.toDigits 16 c.toNat ++ ['\x7d'])

/-- A text between quotation marks. -/
def quoted (s : String) : String := String.ofList ('"' :: (s.toList.flatMap shown ++ ['"']))

end BotFleet.Text
