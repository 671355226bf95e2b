import BotFleet.Session.Settlement

/-!
# Asking for a login

* `LoginHandle`: what the owner of a session knows about its login;
* `LoginHandle.poll`: ask for the verdict without waiting; once known it stays the same.
-/

namespace BotFleet

/-- What the owner of a session knows about its login: it still has the receiver, or an outcome. -/
structure LoginHandle where
  receiving : Bool := true
  outcome : Option Verdict := none
deriving DecidableEq, Inhabited

namespace LoginHandle

/-- The verdict of a session whose work ended without one. -/
def endedEarly : Verdict := .failure ⟨.disconnected, "session task ended before login"⟩

/-- The verdict of a handle that has neither receiver nor outcome. -/
def consumed : Verdict := .failure ⟨.disconnected, "login already consumed"⟩

/-- Remember the verdict; the receiver is not needed any more. -/
def remember (v : Verdict) : LoginHandle := ⟨false, some v⟩

/-- Ask for the verdict without waiting. -/
def poll (h : LoginHandle) (s : Settlement) : LoginHandle × Settlement × Option Verdict :=
  match h.outcome with
  | some v => (h, s, some v)
  | none =>
    if h.receiving then
      match s.receive with
      | (s, .verdict v) => (remember v, s, some v)
      | (s, .empty) => (h, s, none)
      | (s, _) => (remember endedEarly, s, some endedEarly)
    else (remember consumed, s, some consumed)

end LoginHandle

end BotFleet
