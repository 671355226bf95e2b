import BotFleet.Session.Verdict

/-!
# Recorded logins

* `LoginRecord`: whose login ended how;
* `LoginRecord.line`: the line printed when it is recorded;
* `Reporter`: the records in the order of their arrival.
-/

namespace BotFleet

/-- The verdict of one session's login. -/
structure LoginRecord where
  identity : String
  verdict : Verdict
deriving DecidableEq, Inhabited

namespace LoginRecord

/-- The line printed when a login is recorded. -/
def line (r : LoginRecord) : String :=
  match r.verdict with
  | .success => s!"Bot {r.identity} created successfully"
  | .failure cause => s!"Failed to create bot {r.identity}: {cause.message}"

def toJson (r : LoginRecord) : Json :=
  .obj [("identity", .str r.identity), ("outcome", r.verdict.toJson)]

end LoginRecord

/-- The recorded logins of a run, the oldest first. -/
structure Reporter where
  records : List LoginRecord := []
deriving DecidableEq, Inhabited

namespace Reporter

def size (r : Reporter) : Nat := r.records.length

def isEmpty (r : Reporter) : Bool := r.size = 0

/-- Append a record. -/
def add (r : Reporter) (record : LoginRecord) : Reporter := ⟨r.records ++ [record]⟩

def toJson (r : Reporter) : Json := .arr (r.records.map LoginRecord.toJson)

end Reporter

end BotFleet
