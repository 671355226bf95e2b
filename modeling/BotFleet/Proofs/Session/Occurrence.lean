import BotFleet.Session.Handle
import BotFleet.Session.Script

/-!
# What decides a login

* `Occurrence`, `Occurrence.verdict?`, `Occurrence.isFinal`: what a session sees, what it decides
  about a login that is still open, and whether it ends the session;
* `firstVerdict`: the verdict of the first decisive occurrence;
* `Script.occurrences`, `Script.verdict?`: what a script brings about, in its order, and the verdict
  of it;
* **`Script.opened_feed`**: a client that opens reports exactly the rest of it.
-/

namespace BotFleet

/-- What a session sees: a request to stop, the outcome of connecting, or a report. -/
inductive Occurrence where
  | stop
  | opening (o : Opening)
  | report (r : Report)
deriving DecidableEq

namespace Occurrence

/-- The verdict on a login that is still open; an opened connection, a spawn and a chat line decide
nothing. -/
def verdict? : Occurrence → Option Verdict
  | .stop => some (.failure ⟨.disconnected, "shutdown requested"⟩)
  | .opening .opened => none
  | .opening (.failed f) => some (.failure ⟨.connection, f.message⟩)
  | .opening (.crashed _) => some (.failure ⟨.disconnected, "session task ended before login"⟩)
  | .report .closed => some (.failure ⟨.disconnected, "event stream closed"⟩)
  | .report (.event .spawn) => none
  | .report (.event .login) => some .success
  | .report (.event (.chat _ _)) => none
  | .report (.event (.kicked reason)) => some (.failure ⟨.kicked, reason⟩)
  | .report (.event (.ended reason)) => some (.failure ⟨.disconnected, reason⟩)
  | .report (.event (.failed message)) => some (.failure ⟨.protocolError, message⟩)

/-- An occurrence that fails an open login ends the session, open or not. -/
def isFinal (o : Occurrence) : Bool := o.verdict?.any (!·.isSuccess)

theorem isFinal_of_failure {o : Occurrence} {cause : LoginFailure}
    (h : o.verdict? = some (.failure cause)) : o.isFinal = true := by
  simp [isFinal, h, Verdict.isSuccess]

end Occurrence

/-! ## The first decisive occurrence -/

/-- The verdict of the first decisive occurrence. -/
def firstVerdict (seen : List Occurrence) : Option Verdict := seen.findSome? Occurrence.verdict?

theorem firstVerdict_append (xs ys : List Occurrence) :
    firstVerdict (xs ++ ys) = (firstVerdict xs).or (firstVerdict ys) :=
  List.findSome?_append

theorem firstVerdict_snoc (xs : List Occurrence) (o : Occurrence) :
    firstVerdict (xs ++ [o]) = (firstVerdict xs).or o.verdict? := by
  rw [firstVerdict_append]
  simp [firstVerdict]

theorem firstVerdict_append_of_some {xs : List Occurrence} {v : Verdict}
    (h : firstVerdict xs = some v) (ys : List Occurrence) : firstVerdict (xs ++ ys) = some v := by
  rw [firstVerdict_append, h, Option.some_or]

/-! ## What a script brings about -/

namespace Script

/-- The events of a client, and the end of their stream if it closes. -/
def reports (s : Script) : List Report :=
  s.events.map (fun e => .event e.2) ++ if s.closes then [.closed] else []

/-- What a script brings about: the outcome of connecting, and the reports of an open client. -/
def occurrences (s : Script) : List Occurrence :=
  match s.opening with
  | none => []
  | some (_, .opened) => .opening .opened :: s.reports.map .report
  | some (_, o) => [.opening o]

/-- The verdict that a script brings about, if nobody asks its session to stop. -/
def verdict? (s : Script) : Option Verdict := firstVerdict s.occurrences

theorem map_schedule (closes : Bool) (events : List (Nat × Client.Event)) :
    ∀ now, (schedule closes now events).map Prod.snd =
      events.map (fun e => .event e.2) ++ if closes then [.closed] else [] := by
  induction events with
  | nil => intro now; cases closes <;> rfl
  | cons e events ih =>
    intro now
    rw [schedule, List.map_cons, ih, List.map_cons, List.cons_append]

theorem map_feed (s : Script) (opened : Nat) : (s.feed opened).map Prod.snd = s.reports :=
  map_schedule s.closes s.events opened

/-- **A client that opens reports exactly what its script brings about.** -/
theorem opened_feed {s : Script} {delay : Nat} (h : s.opening = some (delay, .opened))
    (opened : Nat) :
    s.occurrences = .opening .opened :: (s.feed opened).map fun r => .report r.2 := by
  have hmap : (s.feed opened).map (fun r => Occurrence.report r.2) =
      ((s.feed opened).map Prod.snd).map .report := by
    rw [List.map_map]; rfl
  rw [occurrences, h, hmap, map_feed]

theorem le_of_mem_schedule (closes : Bool) (events : List (Nat × Client.Event)) :
    ∀ now, ∀ r ∈ schedule closes now events, now ≤ r.1 := by
  induction events with
  | nil =>
    intro now r hr
    cases closes
    · cases hr
    · cases List.mem_singleton.mp hr
      exact Nat.le_refl now
  | cons e events ih =>
    intro now r hr
    have hwake : now ≤ Clock.wake now e.1 := Nat.le_add_right _ _
    rw [schedule, List.mem_cons] at hr
    rcases hr with rfl | hr
    · exact hwake
    · exact Nat.le_trans hwake (ih _ r hr)

theorem pairwise_schedule (closes : Bool) (events : List (Nat × Client.Event)) :
    ∀ now, (schedule closes now events).Pairwise fun r r' => r.1 ≤ r'.1 := by
  induction events with
  | nil => intro now; cases closes <;> simp [schedule]
  | cons e events ih =>
    intro now
    rw [schedule, List.pairwise_cons]
    exact ⟨le_of_mem_schedule closes events _, ih _⟩

theorem length_schedule_le (closes : Bool) (events : List (Nat × Client.Event)) :
    ∀ now, (schedule closes now events).length ≤ events.length + 1 := by
  induction events with
  | nil => intro now; cases closes <;> simp [schedule]
  | cons e events ih =>
    intro now
    rw [schedule, List.length_cons, List.length_cons]
    have := ih (Clock.wake now e.1)
    omega

end Script

end BotFleet
