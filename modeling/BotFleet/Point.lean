import BotFleet.Json.Value
import BotFleet.Number.Places

/-!
# Points of the world

* `Point`: where an avatar stands or looks;
* `Point.shifted`: a point moved on the horizontal plane;
* `Point.text`, `Point.toJson`.
-/

namespace BotFleet

/-- A point of the world; `y` is the height. -/
structure Point where
  x : Double
  y : Double
  z : Double
deriving DecidableEq, Inhabited

namespace Point

/-- A point moved on the horizontal plane; its height stays. -/
def shifted (p : Point) (dx dz : Double) : Point := ⟨p.x + dx, p.y, p.z + dz⟩

/-- Both points have equal coordinates, as numbers. -/
def same (p q : Point) : Bool := p.x.same q.x && p.y.same q.y && p.z.same q.z

/-- A point for a reader, with two places. -/
def text (p : Point) : String := s!"({p.x.twoPlaces}, {p.y.twoPlaces}, {p.z.twoPlaces})"

def members (p : Point) : List (String × Json) :=
  [("x", .double p.x), ("y", .double p.y), ("z", .double p.z)]

def toJson (p : Point) : Json := .obj p.members

end Point

end BotFleet
