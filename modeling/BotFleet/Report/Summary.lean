import BotFleet.Report.Record
import BotFleet.Report.RunId
import BotFleet.Tally

/-!
# The summary of a run

* `Summary.ofRecords`: the totals of a run's records, its failures counted by kind;
* `Summary.toJson`, `Summary.lines`: the summary as a JSON value and for a reader.
-/

namespace BotFleet

/-- The totals of a run. Its failures are counted by the names of their kinds, which stand in
order. -/
structure Summary where
  runId : RunId
  requested : Nat
  succeeded : Nat
  failed : Nat
  failuresByKind : List (String × Nat)
  ascending : failuresByKind.Pairwise (·.1 < ·.1)
  tally : Tally
  records : List LoginRecord
deriving DecidableEq

namespace Summary

/-- How many logins failed for a reason of the kind of the given name. -/
def failuresOf (records : List LoginRecord) (kind : String) : Nat :=
  records.countP fun r => r.verdict.kind?.map FailureKind.name = some kind

/-- Those of some kinds that occur, each with its number. -/
def occurring (kinds : List String) (number : String → Nat) : List (String × Nat) :=
  kinds.filterMap fun kind => if number kind = 0 then none else some (kind, number kind)

theorem ascending_occurring {kinds : List String} (h : kinds.Pairwise (· < ·))
    (number : String → Nat) : (occurring kinds number).Pairwise (·.1 < ·.1) := by
  refine h.filterMap _ fun kind kind' hlt p hp p' hp' => ?_
  obtain ⟨-, hp⟩ := Option.ite_none_left_eq_some.mp hp
  obtain ⟨-, hp'⟩ := Option.ite_none_left_eq_some.mp hp'
  cases hp
  cases hp'
  exact hlt

/-- The kinds of failures that occurred, each with its number. -/
def countKinds (records : List LoginRecord) : List (String × Nat) :=
  occurring FailureKind.names (failuresOf records)

/-- The totals of the records of a run. -/
def ofRecords (runId : RunId) (requested : Nat) (records : List LoginRecord) (tally : Tally) :
    Summary :=
  let succeeded := records.countP fun r => r.verdict.isSuccess
  { runId, requested, succeeded
    failed := records.length - succeeded
    failuresByKind := countKinds records
    ascending := ascending_occurring FailureKind.ascending_names _
    tally, records }

def toJson (s : Summary) : Json :=
  .obj [
    ("runId", .str s.runId.text),
    ("requested", .nat s.requested),
    ("succeeded", .nat s.succeeded),
    ("failed", .nat s.failed),
    ("failuresByKind", .obj (s.failuresByKind.map fun (kind, n) => (kind, .nat n))),
    ("metrics", s.tally.toJson),
    ("outcomes", .arr (s.records.map LoginRecord.toJson))]

/-- The lines of the summary for a reader. -/
def lines (s : Summary) : List String :=
  ["", "=== Swarm Summary ===",
    s!"Run: {s.runId.text}",
    s!"Bots Requested: {s.requested}",
    s!"Logged In: {s.succeeded}",
    s!"Failed: {s.failed}"] ++
  (s.failuresByKind.map fun (kind, n) => s!"  {kind}: {n}") ++
  ["", "Activity:",
    s!"  Movement Ticks: {s.tally.moves}",
    s!"  Chat Messages: {s.tally.chats}",
    s!"  Ended After Login: {s.tally.endedAfterLogin}",
    "=====================", ""]

end Summary

end BotFleet
