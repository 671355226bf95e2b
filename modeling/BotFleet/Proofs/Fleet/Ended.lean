import BotFleet.Proofs.Fleet.Balance
import BotFleet.Proofs.Seat.Ended
import Mathlib.Data.List.Perm.Basic

/-!
# What a fleet shows of sessions that are over

* `Fleet.live_without`: how the live sessions change when one is left out;
* `Fleet.Reckoned.live_eq`: the live sessions are those that have not finished;
* `Fleet.Reckoned.times_failures`: the failures that are counted are those of finished sessions;
* **`Fleet.ended_seen`**: everyone sees that a session has finished, and no one that it has crashed;
* `Fleet.crash_unseen`: a session that crashes while it is connecting.
-/

namespace BotFleet

namespace Fleet

/-- The fleet without one of its sessions. -/
def without (f : Fleet) (i : Nat) : Fleet := { f with seats := f.seats.eraseIdx i }

theorem live_without {f : Fleet} {i : Nat} {seat : Seat} (h : f.seats[i]? = some seat) :
    f.live = (f.without i).live + (!seat.session.isTerminated).toNat := by
  obtain ⟨hlt, rfl⟩ := List.getElem?_eq_some_iff.mp h
  have hperm := List.getElem_cons_eraseIdx_perm hlt
  rw [live, ← hperm.countP_eq, List.countP_cons, live, without]
  cases f.seats[i].session.isTerminated <;> rfl

/-- Every session has seen something that explains what it has counted. -/
def Reckoned (f : Fleet) : Prop := ∀ seat ∈ f.seats, ∃ seen, seat.Reckons seen

theorem reckoned_run (ms : List Move) : (run {} ms).Reckoned :=
  forall_seats_run (fun start settings pace script => ⟨[], Seat.reckons_fresh ..⟩)
    (fun _ m ⟨_, h⟩ => ⟨_, h.move m⟩) (by simp) ms

theorem Reckoned.live_eq {f : Fleet} (h : f.Reckoned) :
    f.live = f.seats.countP fun seat => decide (seat.session.phase ≠ .finished) := by
  refine List.countP_congr fun seat hseat => ?_
  obtain ⟨seen, hseen⟩ := h seat hseat
  have hiff := hseen.follows.coherent.isTerminated_iff
  rw [Bool.not_eq_true', decide_eq_true_iff, ne_eq, ← hiff, Bool.not_eq_true]

/-- A session has finished with the failure of its login. -/
def hasFailed (seat : Seat) : Bool :=
  decide (seat.session.phase = .finished ∧ seat.answer ≠ some .success)

theorem Reckoned.times_failures {f : Fleet} (h : f.Reckoned) :
    f.times (.count .failures) = f.seats.countP hasFailed := by
  obtain ⟨now, seats, tally, journal⟩ := f
  simp only [times, effects, Reckoned] at h ⊢
  induction seats with
  | nil => rfl
  | cons seat seats ih =>
    obtain ⟨⟨seen, hseen⟩, hseats⟩ := List.forall_mem_cons.mp h
    have hone : seat.effects.count (.count .failures) = _ := hseen.failures_eq
    rw [List.flatMap_cons, List.count_append, ih hseats, List.countP_cons, hone, Nat.add_comm]
    simp only [hasFailed, decide_eq_true_eq]

/-- **Everyone sees that a session has finished, and no one that it has crashed.** However many
sessions there are, and in whatever order they run:

* a session that has finished is seen as terminated, is not counted as live, has an answer for its
  owner, and has counted a failure exactly once if that is one;
* a session crashes only if connecting does; it is not seen as terminated, is still counted as live,
  and answers that its login has failed, which it has not counted;
* nothing else makes a session live no more, or counts a failure.

Nothing needs to be at rest for this. The counter has 64 bits. -/
theorem ended_seen (ms : List Move) :
    let f := run {} ms
    (∀ i seat, f.seats[i]? = some seat →
      (seat.session.phase = .finished → seat.SeenOver ∧ f.live = (f.without i).live) ∧
      (∀ message, seat.session.phase = .crashed message →
        (∃ delay, seat.session.script.opening = some (delay, .crashed message)) ∧ seat.Unseen ∧
          f.live = (f.without i).live + 1)) ∧
      (f.live = f.seats.countP fun seat => decide (seat.session.phase ≠ .finished)) ∧
      f.tally.failures = UInt64.ofNat (f.seats.countP hasFailed) := by
  intro f
  have hf : f.Reckoned := reckoned_run ms
  refine ⟨fun i seat hi => ?_, hf.live_eq, ?_⟩
  · obtain ⟨seen, hseen⟩ := hf seat (List.mem_of_getElem? hi)
    have hlive := live_without hi
    refine ⟨fun hp => ?_, fun message hp => ?_⟩
    · have hover := hseen.seenOver hp
      rw [hover.terminated] at hlive
      exact ⟨hover, hlive⟩
    · have hunseen := hseen.unseen hp
      rw [hunseen.terminated] at hlive
      exact ⟨hseen.crashed message hp, hunseen, hlive⟩
  · rw [← hf.times_failures]
    exact (tallied_run ms).counter .failures

/-- A session that crashes while it is connecting: its task is over and there is nothing left to do,
its owner is told of a failure, and still it is neither terminated nor counted. -/
theorem crash_unseen :
    let f := run {} [
      .launch ⟨"Bot1", ⟨"localhost", 25565, "1.21.4"⟩⟩ none { opening := some (0, .crashed "boom") },
      .act 0 .steady .work, .act 0 .steady .work]
    ∃ seat, f.seats = [seat] ∧ seat.session.phase.isOver = true ∧ seat.session.AtRest ∧
      seat.answer = some (.failure ⟨.disconnected, "session task ended before login"⟩) ∧
      seat.session.isTerminated = false ∧ f.live = 1 ∧ f.tally.failures = 0 := by
  refine ⟨_, rfl, rfl, fun task => ?_, rfl, rfl, rfl, rfl⟩
  cases task <;> rfl

end Fleet

end BotFleet
