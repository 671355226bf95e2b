import BotFleet.Proofs.Fleet.Ended
import BotFleet.Proofs.Fleet.Schedule
import BotFleet.Proofs.Seat.Shutdown

/-!
# Stopping one session of a fleet

A session that is asked to stop finishes at once, whatever the other sessions do, and asking it
again changes nothing.

* `Fleet.getElem?_run`: what becomes of a session during a run of its fleet;
* `Fleet.ShutDown`: what is seen of a session that was asked to stop, and what the shared tally
  says;
* **`Fleet.shutDown_run`**, **`Fleet.shutDown_settle`**: a request to stop comes to that, in any
  order of steps, and at the same instant;
* `Fleet.run_stop_comm`: a request to stop a session that is over makes no difference;
* **`Fleet.stop_at_once`**: the law of the request to stop.
-/

namespace BotFleet

attribute [ext] Fleet

namespace Fleet

variable {f : Fleet} {i : Nat} {seat : Seat}

/-! ## One session of a run -/

theorem getElem?_move (hi : f.seats[i]? = some seat) (m : Move) :
    (f.move m).seats[i]? = some (seat.run (m.on i)) := by
  have hlt := (List.getElem?_eq_some_iff.mp hi).1
  rw [seats_move, List.getElem?_append_left (by rwa [List.length_mapIdx]), List.getElem?_mapIdx, hi]
  rfl

/-- **Every session makes its own moves during a run.** -/
theorem getElem?_run (hi : f.seats[i]? = some seat) (ms : List Move) :
    (f.run ms).seats[i]? = some (seat.run (ms.flatMap (·.on i))) := by
  induction ms generalizing f seat with
  | nil => exact hi
  | cons m ms ih => rw [List.flatMap_cons, Seat.run_append]; exact ih (getElem?_move hi m)

theorem mem_on_act (i : Nat) (draw : Draw) (task : Session.Task) :
    .act draw task ∈ (Move.act i draw task).on i := by
  simp [Move.on, Move.target?]

theorem times_without (hi : f.seats[i]? = some seat) (e : Effect) :
    f.times e = (f.without i).times e + seat.times e := by
  obtain ⟨hlt, rfl⟩ := List.getElem?_eq_some_iff.mp hi
  have hperm := (List.getElem_cons_eraseIdx_perm hlt).flatMap_right Seat.effects
  rw [times, effects, ← hperm.count_eq, List.flatMap_cons, List.count_append, Nat.add_comm]
  rfl

theorem countP_without (hi : f.seats[i]? = some seat) (p : Seat → Bool) :
    f.seats.countP p = (f.without i).seats.countP p + (p seat).toNat := by
  obtain ⟨hlt, rfl⟩ := List.getElem?_eq_some_iff.mp hi
  rw [← (List.getElem_cons_eraseIdx_perm hlt).countP_eq, List.countP_cons, without]
  cases p f.seats[i] <;> rfl

/-! ## Taking effect -/

/-- What is seen of a session that was asked to stop before it was over: the session is shut, and
the shared tally shows what the other sessions have counted, and besides one start and either one
failure or one end after login. The active sessions are others. -/
structure ShutDown (i : Nat) (seat : Seat) (f : Fleet) : Prop where
  session : ∃ seat', f.seats[i]? = some seat' ∧ seat.Shut seat'
  active : f.tally.active = UInt64.ofNat ((f.without i).seats.countP (·.session.isWorking))
  started : f.tally.started = UInt64.ofNat ((f.without i).times (.count .started) + 1)
  failures : f.tally.failures = UInt64.ofNat ((f.without i).times (.count .failures) +
    if seat.answer = none then 1 else 0)
  ended : f.tally.endedAfterLogin = UInt64.ofNat ((f.without i).times (.count .endedAfterLogin) +
    if seat.answer = none then 0 else 1)

theorem shutDown_of_shut {seen : List Occurrence} (hseat : seat.Reckons seen)
    (hopen : seat.session.phase.isOver = false) {ms : List Move} {seat' : Seat}
    (hi : (run {} ms).seats[i]? = some seat') (hshut : seat.Shut seat') :
    ShutDown i seat (run {} ms) := by
  have ht := tallied_run ms
  have hb := balanced_of_counted (counted_run ms)
  obtain ⟨hfailures, hended⟩ := hseat.times_of_open hopen
  have hworking : seat'.session.isWorking = false := by
    rw [Session.isWorking, hshut.finished]; simp [Phase.isOver]
  refine ⟨⟨seat', hi, hshut⟩, ?_, ?_, ?_, ?_⟩
  · rw [ht.active_eq hb, countP_without hi, hworking]; rfl
  · exact (ht.counter .started).trans (by rw [times_without hi, hshut.started])
  · refine (ht.counter .failures).trans ?_
    rw [times_without hi, hshut.failures, hfailures, Nat.zero_add]
  · refine (ht.counter .endedAfterLogin).trans ?_
    rw [times_without hi, hshut.ended, hended, Nat.zero_add]

theorem seat_of_run {before : List Move} (hi : (run {} before).seats[i]? = some seat) :
    ∃ seen, seat.Reckons seen :=
  reckoned_run before seat (List.mem_of_getElem? hi)

/-- **A request to stop shuts a session**, in whatever order the sessions take their steps. -/
theorem shutDown_run {before : List Move} (hi : (run {} before).seats[i]? = some seat)
    (hopen : seat.session.phase.isOver = false) {after : List Move}
    (hdue : (∃ draw, .act i draw .work ∈ after) ∨
      ∀ seat' ∈ (((run {} before).move (.stop i)).run after).seats[i]?, seat'.session.AtRest) :
    ShutDown i seat (((run {} before).move (.stop i)).run after) := by
  obtain ⟨seen, hseat⟩ := seat_of_run hi
  have hon : (Move.stop i).on i = [.stop] := by simp [Move.on, Move.target?]
  have hstop := getElem?_move hi (.stop i)
  rw [hon, Seat.run_cons, Seat.run_nil] at hstop
  have hrun := getElem?_run hstop after
  have hshut : seat.Shut ((seat.move .stop).run (after.flatMap (·.on i))) := by
    refine hseat.shut_run hopen ?_
    rcases hdue with ⟨draw, hmem⟩ | hrest
    · exact .inl ⟨draw, List.mem_flatMap.mpr ⟨_, hmem, mem_on_act i draw .work⟩⟩
    · exact .inr (hrest _ hrun)
  have hall : ((run {} before).move (.stop i)).run after = run {} (before ++ .stop i :: after) :=
    (run_append {} before (.stop i :: after)).symm
  rw [hall] at hrun ⊢
  exact shutDown_of_shut hseat hopen hrun hshut

theorem coherent_run (ms : List Move) : (run {} ms).Coherent := by
  intro seat hseat
  obtain ⟨seen, hseen⟩ := reckoned_run ms seat hseat
  exact hseen.follows.coherent

/-- **It does so at the same instant**, as soon as everything is done that can be done. -/
theorem shutDown_settle {before : List Move} (hi : (run {} before).seats[i]? = some seat)
    (hopen : seat.session.phase.isOver = false) (draw : Draw) :
    ShutDown i seat (((run {} before).move (.stop i)).settle draw) := by
  have hc : ((run {} before).move (.stop i)).Coherent := by
    have hall : (run {} before).move (.stop i) = run {} (before ++ [.stop i]) :=
      (run_append {} before [.stop i]).symm
    rw [hall]
    exact coherent_run _
  obtain ⟨acts, hacts⟩ := exists_run_of_settle hc draw
  have hrest := atRest_settle hc draw
  rw [← hacts] at hrest ⊢
  exact shutDown_run hi hopen (.inr fun seat' hseat' => hrest seat' (List.mem_of_getElem? hseat'))

/-! ## Asking again -/

theorem move_stop_of_stopping
    (hi : ∀ seat, f.seats[i]? = some seat → seat.session.stopping = true) :
    f.move (.stop i) = f := by
  have hseats : (f.move (.stop i)).seats = f.seats := by
    rw [seats_target f rfl]
    refine List.ext_getElem? fun k => ?_
    rw [List.getElem?_modify]
    by_cases hk : i = k
    · subst hk
      cases hs : f.seats[i]? with
      | none => rfl
      | some seat => simp [Seat.move_stop_of_stopping (hi seat hs)]
    · simp [hk]
  exact Fleet.ext rfl hseats rfl rfl

/-- A move does the same whether or not a session that is over is asked to stop. -/
theorem does_stop_comm (hi : f.seats[i]? = some seat) (hc : seat.session.Coherent)
    (hover : seat.session.phase.isOver = true) (m : Move) :
    (f.move (.stop i)).does m = f.does m := by
  unfold does
  cases m.target? with
  | none => rfl
  | some x =>
    obtain ⟨k, m'⟩ := x
    simp only [seats_target f (m := .stop i) rfl, List.getElem?_modify]
    by_cases hk : i = k
    · subst hk
      simp [hi, (Seat.move_stop_comm hc hover m').2]
    · simp [hk]

/-- **A request to stop a session that is over can come before or after any move.** -/
theorem move_stop_comm (hi : f.seats[i]? = some seat) (hc : seat.session.Coherent)
    (hover : seat.session.phase.isOver = true) (m : Move) :
    (f.move (.stop i)).move m = (f.move m).move (.stop i) := by
  have hseats : ((f.move (.stop i)).move m).seats = ((f.move m).move (.stop i)).seats := by
    rw [seats_target (f.move m) (m := .stop i) rfl, seats_move (f.move (.stop i)) m, seats_move f m,
      seats_target f (m := .stop i) rfl]
    refine List.ext_getElem? fun k => ?_
    by_cases hk : k < f.seats.length
    · rw [List.getElem?_append_left (by simpa using hk), List.getElem?_modify,
        List.getElem?_append_left (by simpa using hk), List.getElem?_mapIdx, List.getElem?_mapIdx,
        List.getElem?_modify]
      by_cases hik : i = k
      · subst hik
        simp [hi, Seat.run_stop_comm hc hover]
      · simp [hik]
    · have hik : i ≠ k := fun h => hk (h ▸ (List.getElem?_eq_some_iff.mp hi).1)
      rw [List.getElem?_append_right (by simpa using hk), List.getElem?_modify,
        List.getElem?_append_right (by simpa using hk)]
      simp [hik]
      rfl
  have htally : ((f.move (.stop i)).move m).tally = ((f.move m).move (.stop i)).tally := by
    rw [tally_move, does_stop_comm hi hc hover]
    exact (tally_move f m).symm
  refine Fleet.ext ?_ hseats htally ?_
  all_goals
    cases m with
    | act k draw task | ask k =>
      simp only [move, requestStop, modifySession, step, pollLogin, List.getElem?_modify]
      cases f.seats[k]? <;> rfl
    | _ => rfl

theorem run_stop_comm (hi : f.seats[i]? = some seat) (hc : seat.session.Coherent)
    (hover : seat.session.phase.isOver = true) (ms : List Move) :
    (f.move (.stop i)).run ms = (f.run ms).move (.stop i) := by
  induction ms generalizing f seat with
  | nil => rfl
  | cons m ms ih =>
    have hover' : (seat.run (m.on i)).session.phase.isOver = true :=
      Seat.run_induction (P := fun seat => seat.session.phase.isOver = true) hover
        (fun _ m' ho => (Seat.isOver_move ho m').1 ▸ ho) _
    rw [run_cons, move_stop_comm hi hc hover, run_cons,
      ih (getElem?_move hi m) (Seat.coherent_run hc _) hover']

/-! ## The law of the request to stop -/

/-- **A request to stop takes effect at once and once.** Let a session of a fleet be asked to stop,
whatever has happened to the fleet before and whatever the script of the session is.

* If the session is not over, it is shut down as soon as everything is done that can be done at that
  instant, and no time has passed.
* That is so in any other order of steps as well, whatever else happens, once the session has taken
  a step of its work or has nothing left to do.
* To ask it again changes nothing, at any later time.
* If the session is over already, everything goes on as it would without the request, of which
  nothing is left but the note of it. -/
theorem stop_at_once (before : List Move) (i : Nat) {seat : Seat}
    (hi : (run {} before).seats[i]? = some seat) :
    let f := run {} before
    let stopped := f.move (.stop i)
    (seat.session.phase.isOver = false →
      (∀ draw, (stopped.settle draw).now = f.now ∧ ShutDown i seat (stopped.settle draw)) ∧
      ∀ after, ((∃ draw, .act i draw .work ∈ after) ∨
          ∀ seat' ∈ (stopped.run after).seats[i]?, seat'.session.AtRest) →
        ShutDown i seat (stopped.run after)) ∧
    (∀ after, (stopped.run after).requestStop i = stopped.run after) ∧
    (seat.session.phase.isOver = true →
      ∀ after, stopped.run after = (f.run after).requestStop i) := by
  intro f stopped
  obtain ⟨seen, hseat⟩ := seat_of_run hi
  have hc := hseat.follows.coherent
  refine ⟨fun hopen => ⟨fun draw => ⟨rfl, shutDown_settle hi hopen draw⟩,
    fun after hdue => shutDown_run hi hopen hdue⟩, fun after => ?_, fun hover after =>
    run_stop_comm hi hc hover after⟩
  refine move_stop_of_stopping fun seat' hi' => ?_
  have hrun := getElem?_run hi (.stop i :: after)
  cases hi'.symm.trans hrun
  refine (Seat.stopping_run hc _).mpr (.inr ?_)
  simp [Move.on, Move.target?]

/-- A bot that is logged in, and has a kick to look at when it is stopped, next to one whose
connecting never comes to an end. -/
theorem stop_at_once_kicked :
    let before : List Move := [
      .launch ⟨"Bot1", ⟨"localhost", 25565, "1.21.4"⟩⟩ none
        { events := [(0, .login), (3, .kicked "idle")] },
      .launch ⟨"Bot2", ⟨"localhost", 25565, "1.21.4"⟩⟩ none { opening := none },
      .act 0 .steady .work, .act 1 .steady .work, .act 0 .steady .work, .act 0 .steady .report,
      .act 0 .steady .work, .pass 3, .act 0 .steady .report]
    ∃ seat, (run {} before).seats[0]? = some seat ∧ seat.session.phase.isOver = false ∧
      seat.session.inbox = [.event (.kicked "idle")] ∧ seat.answer = some .success ∧
      ShutDown 0 seat (((run {} before).move (.stop 0)).settle .steady) := by
  intro before
  obtain ⟨seat, hi⟩ : ∃ seat, (run {} before).seats[0]? = some seat := ⟨_, rfl⟩
  have hseat : ((run {} before).seats[0]?.map fun seat =>
      (seat.session.phase.isOver, seat.session.inbox, seat.answer)) =
        some (false, [.event (.kicked "idle")], some .success) := by decide
  rw [hi, Option.map_some, Option.some.injEq, Prod.mk.injEq, Prod.mk.injEq] at hseat
  obtain ⟨hopen, hinbox, hanswer⟩ := hseat
  exact ⟨seat, hi, hopen, hinbox, hanswer, (((stop_at_once before 0 hi).1 hopen).1 .steady).2⟩

end Fleet

end BotFleet
