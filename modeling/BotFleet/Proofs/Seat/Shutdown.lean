import BotFleet.Proofs.Seat.Publication

/-!
# A request to stop

A session that is asked to stop ends in the next step of its work, whatever its phase and whatever
else it has to look at. To ask a session that is over makes no difference.

* `Session.ready_of_stopping`: a session that was asked to stop can do a step of its work;
* **`Seat.run_stopping`**: it sees nothing until it takes that step, and then it has finished;
* `Seat.Shut`: what a request to stop makes of a session that is not over;
* **`Seat.Reckons.shut`**: that is what becomes of it when it has seen the request;
* `Seat.move_stop_of_stopping`, **`Seat.move_stop_comm`**: asking again makes no difference, and
  asking a session that is over leaves everything that it does as it is.
-/

namespace BotFleet

namespace Session

variable {s : Session}

theorem ready_of_stopping (hs : s.stopping = true) (hopen : s.phase.isOver = false) :
    s.ready .work = true := by
  cases hp : s.phase with
  | fresh => exact ready_of_fresh hp
  | connecting due => rw [ready_of_connecting hp, hs]; rfl
  | running => rw [ready_of_running hp, hs]; rfl
  | finished | crashed => rw [hp] at hopen; cases hopen

/-- A session that looks at a request to stop finishes, whatever its phase. -/
theorem Worked.finished_of_stop {s' : Session} {es : List Effect}
    (hw : Worked s (some .stop) s' es) : s'.phase = .finished := by
  cases hw <;> rfl

theorem Coherent.situation_requestStop (h : s.Coherent) (hover : s.phase.isOver = true)
    {r : Routine} (hr : s.routine = some r) : s.requestStop.situation = s.situation := by
  have hkept : s.routineEnded = true := by
    cases hp : s.phase with
    | finished => exact (h.finished hp).routine.resolve_right (by simp [hr])
    | crashed message => exact absurd (h.crashed hp).routine (by simp [hr])
    | _ => rw [hp] at hover; cases hover
  simp only [situation, requestStop, hkept, Bool.or_true]
  rfl

/-- A session that is over does what it does whether or not it was asked to stop. -/
theorem Coherent.step_requestStop (h : s.Coherent) (hover : s.phase.isOver = true) (draw : Draw)
    (task : Task) : s.requestStop.step draw task =
      ((s.step draw task).1.requestStop, (s.step draw task).2) := by
  have hidle {task : Task} (hready : s.ready task = false)
      (hready' : s.requestStop.ready task = false) : s.requestStop.step draw task =
        ((s.step draw task).1.requestStop, (s.step draw task).2) := by
    simp only [step, hready, hready', Bool.false_eq_true, if_false]
  cases task with
  | work =>
    exact hidle (not_ready_of_isOver hover) (not_ready_of_isOver (s := s.requestStop) hover)
  | report =>
    cases hp : s.phase with
    | finished | crashed => exact hidle (by simp [ready, hp]) (by simp [ready, requestStop, hp])
    | _ => rw [hp] at hover; cases hover
  | routine task =>
    cases hr : s.routine with
    | none => exact hidle (by simp [ready, hr]) (by simp [ready, requestStop, hr])
    | some r =>
      have hsituation := h.situation_requestStop hover hr
      have hr' : s.requestStop.routine = some r := hr
      simp only [step, ready, hr, hr', hsituation, Option.any_some]
      cases r.ready s.situation task <;> rfl

end Session

namespace Seat

/-! ## Taking effect -/

/-- **A session that was asked to stop ends in its next step**, and nothing is seen of it until it
takes one. -/
theorem run_stopping {seat : Seat} (h : seat.session.Coherent) (hs : seat.session.stopping = true)
    (hopen : seat.session.phase.isOver = false) (ms : List Move) :
    (seat.run ms).session.phase.isOver = false ∧ seat.seen ms = [] ∧
        (∀ draw, .act draw .work ∉ ms) ∨
      (seat.run ms).session.phase = .finished ∧ seat.seen ms = [.stop] := by
  induction ms generalizing seat with
  | nil => exact .inl ⟨hopen, rfl, fun draw => List.not_mem_nil⟩
  | cons m ms ih =>
    have hc := coherent_move seat m h
    by_cases hm : ∃ draw, m = .act draw .work
    · -- the step of the work looks at the request
      obtain ⟨draw, rfl⟩ := hm
      have hsight := Session.sight?_of_stopping (Session.ready_of_stopping hs hopen) hs
      have hfinished : (seat.move (.act draw .work)).session.phase = .finished :=
        (hsight ▸ Session.step_work h draw).finished_of_stop
      have hover : (seat.move (.act draw .work)).session.phase.isOver = true := by
        rw [hfinished]; rfl
      refine .inr ⟨?_, ?_⟩
      · exact run_induction (P := fun seat => seat.session.phase = .finished) hfinished
          (fun _ m hp => ((isOver_move (by rw [hp]; rfl) m).1).trans hp) ms
      · rw [seen, sees, hsight, seen_of_isOver hover]
        rfl
    · have hm : ∀ draw, m ≠ .act draw .work := not_exists.mp hm
      have hphase := (alike_of_not_work seat hm).phase
      rw [run_cons, seen, seat.sees_eq_nil hm, List.nil_append]
      rcases ih hc ((stopping_move h m).mpr (.inl hs)) (hphase ▸ hopen) with hunseen | hover
      · obtain ⟨hopen', hseen, hnone⟩ := hunseen
        refine .inl ⟨hopen', hseen, fun draw hmem => ?_⟩
        rcases List.mem_cons.mp hmem with hhead | htail
        · exact hm draw hhead.symm
        · exact hnone draw htail
      · exact .inr hover

section Open

variable {seat : Seat} {seen : List Occurrence}

theorem Follows.answer_of_open (h : seat.Follows seen) (hopen : seat.session.phase.isOver = false) :
    seat.answer = none ∨ seat.answer = some .success := by
  have hnothing (o : Occurrence) (ho : o ∈ seen) : o.isFinal = false := by
    cases hfinal : o.isFinal with
    | false => rfl
    | true => rw [h.isOver ho hfinal] at hopen; cases hopen
  rw [h.answer_eq]
  cases hv : firstVerdict seen with
  | none => exact .inl rfl
  | some v => exact .inr (congrArg some (firstVerdict_of_open hnothing hv))

theorem Reckons.times_of_open (h : seat.Reckons seen) (hopen : seat.session.phase.isOver = false) :
    seat.times (.count .failures) = 0 ∧ seat.times (.count .endedAfterLogin) = 0 := by
  have hp : seat.session.phase ≠ .finished := fun hp => by rw [hp] at hopen; cases hopen
  refine ⟨by rw [h.failures_eq, if_neg fun hf => hp hf.1], ?_⟩
  have hpresent := h.counted.present
  rw [h.logins, ← h.follows.answer_eq] at hpresent
  rcases h.follows.answer_of_open hopen with ha | ha <;> rw [ha] at hpresent
  · exact (Nat.add_eq_zero_iff.mp hpresent.symm).1
  · -- a login that has succeeded is still present
    have hpublished : seat.session.published = .loggedIn :=
      (h.follows.published_of_success ha).resolve_right fun hterminated =>
        hp (h.follows.coherent.isTerminated_iff.mp (decide_eq_true hterminated))
    rw [Session.isPresent, hpublished] at hpresent
    exact Nat.add_right_cancel hpresent.symm

/-- The answer to a login that a request to stop has ended. -/
def stopVerdict : Verdict := .failure ⟨.disconnected, Session.stopDetail⟩

/-- What a request to stop makes of a session that is not over: the session has started once,
entered once and left once, and has finished. It counts a failure and answers with it if there was
no answer before; otherwise it counts its end, and the answer stays. -/
structure Shut (seat seat' : Seat) : Prop where
  finished : seat'.session.phase = .finished
  published : seat'.session.published = .terminated
  started : seat'.times (.count .started) = 1
  entered : seat'.times .enter = 1
  left : seat'.times .leave = 1
  answer : seat'.answer = some (seat.answer.getD stopVerdict)
  logins : seat'.times (.count .logins) = seat.times (.count .logins)
  failures : seat'.times (.count .failures) =
    seat.times (.count .failures) + if seat.answer = none then 1 else 0
  ended : seat'.times (.count .endedAfterLogin) =
    seat.times (.count .endedAfterLogin) + if seat.answer = none then 0 else 1

/-- **A session that has seen a request to stop is shut.** -/
theorem Reckons.shut (h : seat.Reckons seen) (hopen : seat.session.phase.isOver = false)
    {seat' : Seat} (h' : seat'.Reckons (seen ++ [.stop]))
    (hp : seat'.session.phase = .finished) : seat.Shut seat' := by
  have hended := h'.follows.coherent.finished hp
  have hstarted : seat'.session.isStarted = true := by rw [Session.isStarted, hp]; rfl
  have hover : seat'.session.phase.isOver = true := by rw [hp]; rfl
  have hanswer : seat'.answer = some (seat.answer.getD stopVerdict) := by
    rw [h'.follows.answer_eq, firstVerdict_snoc, h.follows.answer_eq]
    cases firstVerdict seen <;> rfl
  have hlogins : seat'.times (.count .logins) = seat.times (.count .logins) := by
    rw [h'.logins, h.logins, ← h'.follows.answer_eq, ← h.follows.answer_eq, hanswer]
    rcases h.follows.answer_of_open hopen with ha | ha <;> rw [ha] <;> rfl
  have hsettled := h'.counted.settled
  have hpresent := h'.counted.present
  rw [hended.settled, hlogins, h.logins, ← h.follows.answer_eq] at hsettled
  rw [Session.isPresent, hended.published, hlogins, h.logins, ← h.follows.answer_eq] at hpresent
  obtain ⟨hfailures, hendings⟩ := h.times_of_open hopen
  refine ⟨hp, hended.published, h'.counted.started.trans (by rw [hstarted]; rfl),
    h'.counted.entered.trans (by rw [hstarted]; rfl), h'.counted.left.trans (by rw [hover]; rfl),
    hanswer, hlogins, ?_, ?_⟩
  · rw [hfailures]
    rcases h.follows.answer_of_open hopen with ha | ha <;> rw [ha] at hsettled ⊢ <;>
      simpa using hsettled
  · rw [hendings]
    rcases h.follows.answer_of_open hopen with ha | ha <;> rw [ha] at hpresent ⊢ <;>
      simpa using hpresent.symm

/-- **A request to stop shuts a session**, as soon as the session has taken a step of its work or is
at rest. -/
theorem Reckons.shut_run (h : seat.Reckons seen) (hopen : seat.session.phase.isOver = false)
    {ms : List Move}
    (hdue : (∃ draw, .act draw .work ∈ ms) ∨ ((seat.move .stop).run ms).session.AtRest) :
    seat.Shut ((seat.move .stop).run ms) := by
  have hstopped := h.move .stop
  rw [seat.sees_eq_nil (by simp), List.append_nil] at hstopped
  rcases run_stopping hstopped.follows.coherent rfl hopen ms with
    ⟨hopen', -, hnone⟩ | ⟨hfinished, hseen⟩
  · rcases hdue with ⟨draw, hmem⟩ | hrest
    · exact absurd hmem (hnone draw)
    · have hstopping := (stopping_run hstopped.follows.coherent ms).mpr (.inl rfl)
      have hwork := hrest .work
      rw [Session.ready_of_stopping hstopping hopen'] at hwork
      cases hwork
  · have hrun := hstopped.run ms
    rw [hseen] at hrun
    exact h.shut hopen hrun hfinished

end Open

/-! ## Asking again -/

theorem move_stop_of_stopping {seat : Seat} (hs : seat.session.stopping = true) :
    seat.move .stop = seat := by
  obtain ⟨start, session, handle, journal⟩ := seat
  simp only [move, Session.requestStop, Seat.mk.injEq, true_and, and_true]
  rw [← hs]

/-- **A session that is over does what it does**, whether it was asked to stop before or is asked
afterwards. -/
theorem move_stop_comm {seat : Seat} (h : seat.session.Coherent)
    (hover : seat.session.phase.isOver = true) (m : Move) :
    (seat.move .stop).move m = (seat.move m).move .stop ∧
      (seat.move .stop).does m = seat.does m := by
  cases m with
  | act draw task =>
    have hstep := h.step_requestStop hover draw task
    simp only [move, does, advance, hstep, and_true]
    rfl
  | change responses =>
    refine ⟨?_, rfl⟩
    have hconnected : seat.session.requestStop.wasConnected = seat.session.wasConnected := rfl
    simp only [move, Session.change, hconnected]
    cases seat.session.wasConnected <;> rfl
  | _ => exact ⟨rfl, rfl⟩

theorem run_stop_comm {seat : Seat} (h : seat.session.Coherent)
    (hover : seat.session.phase.isOver = true) (ms : List Move) :
    (seat.move .stop).run ms = (seat.run ms).move .stop := by
  induction ms generalizing seat with
  | nil => rfl
  | cons m ms ih =>
    rw [run_cons, (move_stop_comm h hover m).1,
      ih (coherent_move seat m h) ((isOver_move hover m).1 ▸ hover), run_cons]

end Seat

end BotFleet
