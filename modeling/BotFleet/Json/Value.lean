import BotFleet.Number.Double

/-!
# JSON values

* `Json`: a value; whole numbers are kept apart from doubles, and an object keeps its members in
  order, repeated names included;
* `Json.nat`: a natural as a value.
-/

namespace BotFleet

/-- A JSON value. -/
inductive Json where
  | null
  | bool (b : Bool)
  | int (n : Int)
  | double (d : Double)
  | str (s : String)
  | arr (items : List Json)
  | obj (members : List (String × Json))
deriving Inhabited

namespace Json

def nat (n : Nat) : Json := .int n

end Json

end BotFleet
