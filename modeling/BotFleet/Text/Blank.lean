/-!
# Blank text

* `Text.isWhiteSpace`: the characters of Unicode's property of that name;
* `Text.isBlank`: texts of nothing else.
-/

namespace BotFleet.Text

/-- The ranges of code points with the property. -/
def whiteSpace : List (Nat × Nat) := [
  (0x9, 0xD), (0x20, 0x20), (0x85, 0x85), (0xA0, 0xA0), (0x1680, 0x1680), (0x2000, 0x200A),
  (0x2028, 0x2029), (0x202F, 0x202F), (0x205F, 0x205F), (0x3000, 0x3000)]

def isWhiteSpace (c : Char) : Bool :=
  whiteSpace.any fun range => range.1 ≤ c.toNat && c.toNat ≤ range.2

/-- A text of nothing but white space. -/
def isBlank (s : String) : Bool := s.toList.all isWhiteSpace

end BotFleet.Text
