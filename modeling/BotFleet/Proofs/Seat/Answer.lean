import BotFleet.Proofs.Seat.Count
import BotFleet.Proofs.Seat.Course

/-!
# When a session answers

A session that nobody asks to stop connects at its start, and answers at the instant at which its
script decides its login.

* `Script.answersAfter`: how long that is after the start of the session, if it ever happens;
* `Seat.OnCourse`, **`Seat.OnCourse.move`**: a session that runs in time, and goes on so;
* **`Seat.OnCourse.answered`**, **`Seat.OnCourse.unanswered`**: it has an answer from that instant
  on, and not before;
* `Seat.OnCourse.clock_of_unconnected`: it connects at its start, if ever.
-/

namespace BotFleet

/-- How long after the start of its session a script decides its login. What comes after that plays
no part in it, and neither does a routine. -/
def Script.answersAfter (s : Script) : Option Nat :=
  (s.course.find? (·.2.verdict?.isSome)).map Prod.fst

theorem isSome_firstVerdict (seen : List (Nat × Occurrence)) :
    (firstVerdict (seen.map Prod.snd)).isSome = (seen.find? (·.2.verdict?.isSome)).isSome := by
  induction seen with
  | nil => rfl
  | cons x seen ih =>
    rw [List.map_cons, firstVerdict, List.findSome?_cons, List.find?_cons]
    cases x.2.verdict? with
    | none => exact ih
    | some v => rfl

namespace Seat

/-- A session that nobody has asked to stop and that has been running in time, with its history. It
has called its client's connect once, if it has begun. -/
structure OnCourse (seat : Seat) (h : History) : Prop where
  follows : seat.Follows (h.sightings.map Prod.snd)
  punctual : seat.session.Punctual h.sightings
  unstopped : seat.session.stopping = false
  past : ∀ x ∈ h.sightings, x.1 ≤ seat.session.clock
  connects : seat.times .connect = seat.session.isStarted.toNat

theorem onCourse_fresh (start : Nat) (settings : SessionSettings) (pace : Option Pace)
    (script : Script) : (fresh start settings pace script).OnCourse [] :=
  ⟨follows_fresh .., Session.punctual_start .., rfl, by simp [History.sightings], rfl⟩

variable {seat : Seat} {h : History}

theorem count_connect_does (hc : seat.session.Coherent) (hs : seat.session.stopping = false)
    (m : Move) : (seat.does m).count .connect = (seat.does m).count (.count .started) := by
  have hquiet {es : List Effect} (hes : ∀ e ∈ es, e.isDeed = true ∨ e.isLog = true) :
      es.count .connect = es.count (.count .started) := by
    rw [List.count_eq_zero.mpr fun hmem => by simpa [Effect.isDeed, Effect.isLog] using hes _ hmem,
      List.count_eq_zero.mpr fun hmem => by simpa [Effect.isDeed, Effect.isLog] using hes _ hmem]
  cases m with
  | act draw task =>
    cases task with
    | work =>
      have hw := Session.step_work hc draw
      rw [does]
      generalize (seat.session.step draw .work).1 = s' at hw
      generalize (seat.session.step draw .work).2 = es at hw
      generalize seat.session.sight? = o? at hw
      cases hw with
      | idle | begun | crashed => rfl
      | stoppedEarly _ _ hs' | stopped _ _ _ hs' => rw [hs] at hs'; cases hs'
      | refused _ _ _ _ _ _ _ hl | opened _ _ _ _ _ _ hl | noted _ _ _ _ _ _ _ _ hl =>
        obtain ⟨_, _, _, rfl⟩ := Effect.exists_of_isLog hl
        rfl
      | spawned _ _ _ _ _ _ hl => exact hquiet fun e he => .inr (hl e he)
      | loggedIn _ _ _ _ _ _ hl =>
        obtain ⟨_, _, _, rfl⟩ := Effect.exists_of_isLog hl
        split <;> rfl
      | ended _ _ _ _ _ _ _ _ hl hl' =>
        obtain ⟨_, _, _, rfl⟩ := Effect.exists_of_isLog hl
        obtain ⟨_, _, _, rfl⟩ := Effect.exists_of_isLog hl'
        split <;> rfl
    | report => rw [does, Session.effects_report]; rfl
    | routine task => exact hquiet (Session.effects_routine seat.session draw task)
  | _ => rfl

/-- **A session in time goes on so**, as long as nobody asks it to stop. -/
theorem OnCourse.move (hc : seat.OnCourse h) {m : Move} (hm : seat.Allows m) (hstop : m ≠ .stop) :
    (seat.move m).OnCourse (h ++ seat.recent m) where
  follows := by
    rw [History.sightings_append, List.map_append, sightings_recent, List.map_map]
    have hsees : (seat.sees m).map (Prod.snd ∘ (seat.session.clock, ·)) = seat.sees m :=
      List.map_id _
    rw [hsees]
    exact hc.follows.move m
  punctual := punctual_move hc.follows.coherent hc.punctual hc.unstopped hm hstop
  unstopped := by
    rw [← Bool.not_eq_true, stopping_move hc.follows.coherent, hc.unstopped]
    simp [hstop]
  past x hx := by
    have hclock := clock_le_move hc.follows.coherent m
    rw [History.sightings_append, sightings_recent] at hx
    rcases List.mem_append.mp hx with hx | hx
    · exact Nat.le_trans (hc.past x hx) hclock
    · obtain ⟨o, -, rfl⟩ := List.mem_map.mp hx
      exact hclock
  connects := by
    rw [times_move, hc.connects, count_connect_does hc.follows.coherent hc.unstopped,
      (booked_move hc.follows.coherent m).started]

/-- **A session that has an answer has it from the instant on at which its script decides.** -/
theorem OnCourse.answered (hc : seat.OnCourse h) (ha : seat.answer.isSome = true) :
    ∃ d, seat.session.script.answersAfter = some d ∧ d ≤ seat.session.clock := by
  obtain ⟨rest, hcourse, -⟩ := hc.punctual.exists_rest
  rw [hc.follows.answer_eq, isSome_firstVerdict] at ha
  obtain ⟨x, hx⟩ := Option.isSome_iff_exists.mp ha
  refine ⟨x.1, ?_, hc.past x (List.mem_of_find?_eq_some hx)⟩
  rw [Script.answersAfter, ← hcourse, List.find?_append, hx]
  rfl

/-- **A session without an answer is not past that instant.** -/
theorem OnCourse.unanswered (hc : seat.OnCourse h) (ha : seat.answer = none) {d : Nat}
    (hd : seat.session.script.answersAfter = some d) : seat.session.clock ≤ d := by
  obtain ⟨rest, hcourse, -, hrest⟩ := hc.punctual.exists_rest
  have hnone : h.sightings.find? (·.2.verdict?.isSome) = none := by
    rw [← Option.not_isSome_iff_eq_none, ← isSome_firstVerdict, ← hc.follows.answer_eq, ha]
    decide
  rw [Script.answersAfter, ← hcourse, List.find?_append, hnone, Option.none_or] at hd
  obtain ⟨x, hx, rfl⟩ := Option.map_eq_some_iff.mp hd
  rcases hrest with hahead | ⟨y, hy, hfinal⟩
  · exact hahead x (List.mem_of_find?_eq_some hx)
  · -- something final would have decided the login
    have hy := List.find?_eq_none.mp hnone y hy
    cases hv : y.2.verdict? <;> simp_all [Occurrence.isFinal]

theorem OnCourse.unanswered_of_rest (hc : seat.OnCourse h) (ha : seat.answer = none)
    (hrest : seat.session.AtRest) {d : Nat} (hd : seat.session.script.answersAfter = some d) :
    seat.session.clock < d := by
  -- at rest some more time may pass
  have hallows : seat.Allows (.pass 1) :=
    ⟨hrest, fun w hw => Session.wait_pos hrest (Option.mem_def.mp hw)⟩
  exact (hc.move hallows (by simp)).unanswered ha hd

theorem OnCourse.connected_of_answered (hc : seat.OnCourse h) (ha : seat.answer.isSome = true) :
    0 < seat.times .connect := by
  rw [hc.connects, Session.isStarted]
  cases hp : seat.session.phase with
  | fresh =>
    rw [hc.follows.answer_eq, (hc.punctual.fresh hp).1] at ha
    cases ha
  | _ => exact Nat.one_pos

theorem OnCourse.clock_of_unconnected (hc : seat.OnCourse h) (hn : seat.times .connect = 0) :
    seat.session.clock = 0 ∧ ¬seat.session.AtRest := by
  rw [hc.connects] at hn
  have hp : seat.session.phase = .fresh := by simpa [Session.isStarted] using hn
  refine ⟨(hc.punctual.fresh hp).2.2, fun hrest => ?_⟩
  have hwork := hrest .work
  rw [Session.ready_of_fresh hp] at hwork
  cases hwork

end Seat

end BotFleet
