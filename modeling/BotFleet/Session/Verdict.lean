import BotFleet.Json.Value

/-!
# The verdict of a login

* `FailureKind`, `LoginFailure`: why a login failed, and its text;
* `Verdict`: a login succeeded, or it failed.
-/

namespace BotFleet

/-- The kinds of login failures, in the order of their names. -/
inductive FailureKind where
  | connection
  | disconnected
  | kicked
  | protocolError
deriving DecidableEq, Inhabited

namespace FailureKind

def name : FailureKind → String
  | connection => "connection"
  | disconnected => "disconnected"
  | kicked => "kicked"
  | protocolError => "protocol"

/-- What a failure's text begins with. -/
def phrase : FailureKind → String
  | connection => "connection failed"
  | disconnected => "disconnected"
  | kicked => "kicked"
  | protocolError => "protocol error"

/-- All kinds, in the order of their names. -/
def all : List FailureKind := [connection, disconnected, kicked, protocolError]

def names : List String := all.map name

theorem ascending_names : names.Pairwise (· < ·) := by decide

theorem name_mem_names (kind : FailureKind) : kind.name ∈ names := by
  cases kind <;> decide

end FailureKind

/-- Why a login failed. -/
structure LoginFailure where
  kind : FailureKind
  detail : String
deriving DecidableEq, Inhabited

namespace LoginFailure

/-- The text of a failure. -/
def message (f : LoginFailure) : String := s!"{f.kind.phrase}: {f.detail}"

def toJson (f : LoginFailure) : Json :=
  .obj [("kind", .str f.kind.name), ("detail", .str f.detail)]

end LoginFailure

/-- How a login ended. -/
inductive Verdict where
  | success
  | failure (cause : LoginFailure)
deriving DecidableEq, Inhabited

namespace Verdict

def isSuccess : Verdict → Bool
  | success => true
  | failure _ => false

/-- The kind of the failure, if it is one. -/
def kind? : Verdict → Option FailureKind
  | success => none
  | failure cause => some cause.kind

def toJson : Verdict → Json
  | success => .obj [("status", .str "success")]
  | failure cause => .obj [("status", .str "failure"), ("error", cause.toJson)]

end Verdict

end BotFleet
