import BotFleet.Fleet.Joining
import BotFleet.Proofs.Fleet.Ended
import BotFleet.Proofs.Fleet.Schedule
import BotFleet.Report.Summary

/-!
# Stopping a fleet

A fleet that is asked to stop finishes at once, and then its tally agrees with the records of its
logins, although the two are kept apart.

* `Fleet.Continues`: every session of a fleet goes on, and none joins;
* `Fleet.requestStopAll_eq_run`, **`Recruitment.exists_fleet_run`**: the request and the recruiting
  are runs of the fleet;
* `Fleet.Concluded`, **`Fleet.concluded_of_finished`**: the accounts of a fleet whose sessions have
  all finished;
* `Joining.fleet_proceedBy`, **`Joining.isDone_proceedBy`**: a wait passes over sessions that have
  finished;
* **`Fleet.stop_of_finished`**: a stop comes to its end at once, if all sessions finish at once;
* `Order.NeverCrashes`, `Order.Stops`: connecting crashes for no bot, and what a stop comes to;
* **`Order.stop_concludes`**: the law of the stop.
-/

namespace BotFleet

theorem Session.AtRest.isOver {s : Session} (h : s.AtRest) (hs : s.stopping = true) :
    s.phase.isOver = true := by
  have hwork := h .work
  cases hp : s.phase with
  | fresh => rw [ready_of_fresh hp] at hwork; cases hwork
  | connecting due => rw [ready_of_connecting hp, hs] at hwork; cases hwork
  | running => rw [ready_of_running hp, hs] at hwork; cases hwork
  | finished | crashed => rfl

namespace Fleet

/-! ## The sessions go on -/

/-- Every session of a fleet makes some moves, and none joins. -/
structure Continues (f f' : Fleet) : Prop where
  length : f'.seats.length = f.seats.length
  run : ∀ (i : Nat) (seat : Seat), f.seats[i]? = some seat →
    ∃ ms : List Seat.Move, f'.seats[i]? = some (seat.run ms)

theorem Continues.refl (f : Fleet) : Continues f f := ⟨rfl, fun _ _ h => ⟨[], h⟩⟩

theorem Continues.trans {f f' f'' : Fleet} (h : Continues f f') (h' : Continues f' f'') :
    Continues f f'' where
  length := h'.length.trans h.length
  run i seat hi := by
    obtain ⟨ms, hi'⟩ := h.run i seat hi
    obtain ⟨ms', hi''⟩ := h'.run i _ hi'
    exact ⟨ms ++ ms', by rw [hi'', Seat.run_append]⟩

theorem continues_move (f : Fleet) {m : Move}
    (hm : ∀ settings pace script, m ≠ .launch settings pace script) : Continues f (f.move m) := by
  have hnew : m.newcomers f.now = [] := by
    cases m with
    | launch settings pace script => exact absurd rfl (hm settings pace script)
    | _ => rfl
  have hseats := seats_move f m
  rw [hnew, List.append_nil] at hseats
  refine ⟨by rw [hseats, List.length_mapIdx], fun i seat hi => ⟨m.on i, ?_⟩⟩
  rw [hseats, List.getElem?_mapIdx, hi]
  rfl

/-- **In a run without newcomers every session goes on.** -/
theorem continues_run (f : Fleet) {ms : List Move}
    (hms : ∀ settings pace script, .launch settings pace script ∉ ms) :
    Continues f (f.run ms) := by
  induction ms generalizing f with
  | nil => exact .refl f
  | cons m ms ih =>
    have hm := f.continues_move (m := m) fun settings pace script hm =>
      hms settings pace script (hm ▸ List.mem_cons_self)
    exact hm.trans (ih (f.move m) fun settings pace script hmem =>
      hms settings pace script (List.mem_cons_of_mem m hmem))

theorem Continues.exists_run {f f' : Fleet} (h : Continues f f') {i : Nat} {seat' : Seat}
    (hi : f'.seats[i]? = some seat') :
    ∃ seat ms, f.seats[i]? = some seat ∧ seat' = seat.run ms := by
  have hlt := (List.getElem?_eq_some_iff.mp hi).1
  rw [h.length] at hlt
  obtain ⟨ms, hrun⟩ := h.run i _ (List.getElem?_eq_getElem hlt)
  rw [hi] at hrun
  exact ⟨_, ms, List.getElem?_eq_getElem hlt, Option.some.inj hrun⟩

theorem run_stops (f : Fleet) (n : Nat) : f.run ((List.range n).map .stop) =
    { f with seats := f.seats.mapIdx fun i seat => if i < n then seat.move .stop else seat } := by
  induction n with
  | zero =>
    have hsame : f.seats.mapIdx (fun _ seat => seat) = f.seats :=
      List.mapIdx_eq_iff.mpr fun _ => Option.map_id'.symm
    simp [hsame]
  | succ n ih =>
    have hseats : (f.seats.mapIdx fun i seat => if i < n then seat.move .stop else seat).modify n
          (·.move .stop) =
        f.seats.mapIdx fun i seat => if i < n + 1 then seat.move .stop else seat := by
      refine List.ext_getElem? fun k => ?_
      rw [List.getElem?_modify, List.getElem?_mapIdx, List.getElem?_mapIdx]
      cases f.seats[k]? with
      | none => rfl
      | some seat =>
        rcases Nat.lt_trichotomy k n with hk | rfl | hk
        · simp [hk, Nat.lt_succ_of_lt hk, Nat.ne_of_gt hk]
        · simp
        · have hlt : ¬k < n + 1 := by omega
          simp [Nat.not_lt_of_gt hk, hlt, Nat.ne_of_lt hk]
    rw [List.range_succ, List.map_append, run_append, ih, ← hseats]
    rfl

/-- **To ask every session to stop** is to ask one after the other. -/
theorem requestStopAll_eq_run (f : Fleet) :
    f.requestStopAll = f.run ((List.range f.seats.length).map .stop) := by
  have hseats : (f.seats.mapIdx fun i seat =>
      if i < f.seats.length then seat.move .stop else seat) = f.seats.map (·.move .stop) := by
    refine List.mapIdx_eq_iff.mpr fun i => ?_
    rw [List.getElem?_map]
    cases hi : f.seats[i]? with
    | none => rfl
    | some seat => simp [(List.getElem?_eq_some_iff.mp hi).1]
  rw [run_stops, hseats]
  rfl

theorem stopping_requestStopAll (f : Fleet) :
    ∀ seat ∈ f.requestStopAll.seats, seat.session.stopping = true := by
  intro seat hseat
  obtain ⟨before, -, rfl⟩ := List.mem_map.mp hseat
  rfl

end Fleet

theorem Recruitment.exists_fleet_recordLogin (r : Recruitment) (i : Nat) (v : Verdict) :
    ∃ fms : List Fleet.Move, (r.recordLogin i v).fleet = r.fleet.run fms := by
  unfold recordLogin
  by_cases hlt : i < r.order.count
  · refine ⟨[.log .debug s!"Waiting {r.order.stagger}ms before creating the next bot"], ?_⟩
    simp only [hlt, if_true]
    rfl
  · refine ⟨[], ?_⟩
    simp only [hlt, if_false]
    rfl

theorem Recruitment.exists_fleet_step (r : Recruitment) :
    ∃ fms : List Fleet.Move, r.step.fleet = r.fleet.run fms := by
  cases hp : r.phase with
  | starting i =>
    refine ⟨[.log .info s!"Creating {identityOf i} ({i}/{r.order.count})",
      .launch ⟨identityOf i, r.order.target⟩ r.order.pace (r.order.script i)], ?_⟩
    rw [step, hp]
    rfl
  | awaiting i =>
    rw [step, hp]
    simp only
    split
    · rename_i fleet v hpoll
      have hfleet : fleet = r.fleet.move (.ask (i - 1)) := (congrArg Prod.fst hpoll).symm
      obtain ⟨fms, hfms⟩ := exists_fleet_recordLogin { r with fleet, phase := .awaiting i } i v
      refine ⟨.ask (i - 1) :: fms, ?_⟩
      rw [hfms, hfleet]
      rfl
    · exact ⟨[], rfl⟩
  | pausing i due =>
    refine ⟨[], ?_⟩
    rw [step, hp]
    simp only
    split <;> rfl
  | done => exact ⟨[], by rw [step, hp]; rfl⟩

/-- **What happens to the fleet while it is recruited is a run of it.** -/
theorem Recruitment.exists_fleet_run (r : Recruitment) (ms : List Recruitment.Move) :
    ∃ fms : List Fleet.Move, (r.run ms).fleet = r.fleet.run fms := by
  induction ms generalizing r with
  | nil => exact ⟨[], rfl⟩
  | cons m ms ih =>
    obtain ⟨later, hlater⟩ := ih (r.move m)
    have hfirst : ∃ fms : List Fleet.Move, (r.move m).fleet = r.fleet.run fms := by
      cases m with
      | step => exact r.exists_fleet_step
      | act i draw task => exact ⟨[.act i draw task], rfl⟩
      | change i responses => exact ⟨[.change i responses], rfl⟩
      | pass d => exact ⟨[.pass d], rfl⟩
    obtain ⟨fms, hfms⟩ := hfirst
    refine ⟨fms ++ later, ?_⟩
    rw [Fleet.run_append, ← hfms]
    exact hlater

namespace Fleet

/-! ## The accounts -/

theorem times_eq_countP {f : Fleet} {e : Effect} {p : Seat → Bool}
    (h : ∀ seat ∈ f.seats, seat.times e = (p seat).toNat) : f.times e = f.seats.countP p := by
  obtain ⟨now, seats, tally, journal⟩ := f
  simp only [times, effects] at h ⊢
  induction seats with
  | nil => rfl
  | cons seat seats ih =>
    obtain ⟨hseat, hseats⟩ := List.forall_mem_cons.mp h
    have hone : seat.effects.count e = _ := hseat
    rw [List.flatMap_cons, List.count_append, ih hseats, List.countP_cons, hone, Nat.add_comm]
    cases p seat <;> rfl

theorem Reckoned.times_logins {f : Fleet} (h : f.Reckoned) :
    f.times (.count .logins) = f.seats.countP fun seat => decide (seat.answer = some .success) := by
  refine times_eq_countP fun seat hseat => ?_
  obtain ⟨seen, hseen⟩ := h seat hseat
  rw [hseen.logins, hseen.follows.answer_eq]
  by_cases hv : firstVerdict seen = some .success <;> simp [hv]

/-- All sessions of a fleet have finished, and its tally agrees with the records of their logins. -/
structure Concluded (count : Nat) (records : List LoginRecord) (f : Fleet) : Prop where
  length : f.seats.length = count
  finished : ∀ seat ∈ f.seats, seat.session.phase = .finished
  active : f.tally.active = 0
  ended : f.tally.endedAfterLogin = f.tally.logins
  started : f.tally.started.toNat = count
  settled : f.tally.logins.toNat + f.tally.failures.toNat = count
  summary : ∀ runId, let s := Summary.ofRecords runId count records f.tally
    s.succeeded = f.tally.logins.toNat ∧ s.failed = f.tally.failures.toNat ∧
      s.succeeded + s.failed = s.requested

theorem countP_records {records : List LoginRecord} {seats : List Seat}
    (h : records.map (some ·.verdict) = seats.map Seat.answer) :
    records.countP (·.verdict.isSuccess) =
      seats.countP fun seat => decide (seat.answer = some .success) := by
  have hseats := List.countP_map (p := fun v : Option Verdict => decide (v = some .success))
    (f := Seat.answer) (l := seats)
  rw [← h, List.countP_map] at hseats
  refine Eq.trans (List.countP_congr fun x _ => ?_) hseats
  cases hv : x.verdict <;> simp [Verdict.isSuccess, hv]

theorem countP_of_finished {f : Fleet} (hcounted : ∀ seat ∈ f.seats, seat.Counted)
    (hfinished : ∀ seat ∈ f.seats, seat.session.phase = .finished) :
    f.times (.count .started) = f.seats.length ∧ f.seats.countP (·.session.isOpen) = 0 ∧
      f.seats.countP (·.session.isPresent) = 0 ∧ f.seats.countP (·.session.isWorking) = 0 := by
  have hended (seat : Seat) (hseat : seat ∈ f.seats) : seat.session.Ended :=
    (hcounted seat hseat).coherent.finished (hfinished seat hseat)
  refine ⟨?_, List.countP_eq_zero.mpr fun seat hseat => ?_,
    List.countP_eq_zero.mpr fun seat hseat => ?_, List.countP_eq_zero.mpr fun seat hseat => ?_⟩
  · rw [times_eq_countP (p := fun _ => true), List.countP_true]
    intro seat hseat
    rw [(hcounted seat hseat).started, Session.isStarted, hfinished seat hseat]
    rfl
  · simp [Session.isOpen, (hended seat hseat).settled]
  · simp [Session.isPresent, (hended seat hseat).published]
  · simp [Session.isWorking, hfinished seat hseat, Phase.isOver]

/-- **When all sessions have finished, the tally agrees with the records of their logins.** -/
theorem concluded_of_finished {ms : List Move} {records : List LoginRecord}
    (hfinished : ∀ seat ∈ (run {} ms).seats, seat.session.phase = .finished)
    (hfew : (run {} ms).seats.length < UInt64.size)
    (hrecords : records.map (some ·.verdict) = (run {} ms).seats.map Seat.answer) :
    Concluded (run {} ms).seats.length records (run {} ms) := by
  have ht := tallied_run ms
  have hcounted := counted_run ms
  have hreckoned := reckoned_run ms
  generalize run {} ms = f at *
  have hb := balanced_of_counted hcounted
  obtain ⟨hstarted, hlogins, hactive⟩ := ht.exact hb hfew
  obtain ⟨hall, hopen, hpresent, hworking⟩ := countP_of_finished hcounted hfinished
  have hcount : f.tally.started.toNat = f.seats.length :=
    (ht.toNat (c := .started) (by omega)).trans hall
  have hsuccesses : f.tally.logins.toNat = records.countP (·.verdict.isSuccess) := by
    have hle := hb.started
    rw [countP_records hrecords, ← hreckoned.times_logins]
    exact ht.toNat (c := .logins) (by omega)
  have hlength : records.length = f.seats.length := by
    simpa using congrArg List.length hrecords
  refine ⟨rfl, hfinished, UInt64.toNat.inj ?_, UInt64.toNat.inj ?_, hcount, ?_, fun runId => ?_⟩
  · exact hactive.trans hworking
  · omega
  · omega
  · simp only [Summary.ofRecords]
    omega

end Fleet

/-! ## The wait for the end -/

namespace Joining

variable {j : Joining}

theorem fleet_proceedBy (n : Nat)
    (hsound : ∀ seat ∈ j.fleet.seats, ∀ message, seat.session.phase ≠ .crashed message) :
    (j.proceedBy n).fleet = j.fleet := by
  induction n generalizing j with
  | zero => rfl
  | succ n ih =>
    rw [proceedBy]
    cases hseat : j.fleet.seats[j.joined]? with
    | none => rfl
    | some seat =>
      have hreport : reportCrash j.fleet j.joined seat = j.fleet := by
        unfold reportCrash
        split
        · rename_i message hp
          exact absurd hp (hsound seat (List.mem_of_getElem? hseat) message)
        · rfl
      simp only [hreport]
      split
      · exact ih hsound
      · rfl

/-- **A wait passes over sessions that have finished.** -/
theorem isDone_proceedBy (hfinished : ∀ seat ∈ j.fleet.seats, seat.session.phase = .finished)
    {n : Nat} (hn : j.fleet.seats.length ≤ j.joined + n) : (j.proceedBy n).isDone = true := by
  induction n generalizing j with
  | zero => exact decide_eq_true hn
  | succ n ih =>
    rw [proceedBy]
    cases hseat : j.fleet.seats[j.joined]? with
    | none => simpa [isDone] using hseat
    | some seat =>
      have hp := hfinished seat (List.mem_of_getElem? hseat)
      have hreport : reportCrash j.fleet j.joined seat = j.fleet := by rw [reportCrash, hp]
      simp only [hreport, hp, Phase.isOver, if_true]
      exact ih hfinished (by simpa [Nat.add_assoc, Nat.add_comm 1 n] using hn)

end Joining

/-- **A stop comes to its end at once**, if all sessions finish at once. -/
theorem Fleet.stop_of_finished {f : Fleet} {draw : Draw} {grace : Nat} (hgrace : 0 < grace)
    (hsound : ∀ seat ∈ f.requestStopAll.seats, ∀ message, seat.session.phase ≠ .crashed message)
    (hfinished : ∀ seat ∈ (f.requestStopAll.settle draw).seats,
      seat.session.phase = .finished) :
    f.stop draw grace = (f.requestStopAll.settle draw, true) := by
  let j : Joining := Joining.proceedBy { fleet := f.requestStopAll } glance
  have hj : j.fleet = f.requestStopAll := Joining.fleet_proceedBy glance hsound
  have hsettle : (Joining.timed draw).settle j =
      Joining.proceed ⟨f.requestStopAll.settle draw, j.joined⟩ := by
    rw [← hj]
    rfl
  have hfleet : ((Joining.timed draw).settle j).fleet = f.requestStopAll.settle draw := by
    rw [hsettle, Joining.proceed]
    exact Joining.fleet_proceedBy _ fun seat hseat message hp => by
      rw [hfinished seat hseat] at hp
      cases hp
  have hdone : Joining.isDone ((Joining.timed draw).settle j) = true := by
    rw [hsettle, Joining.proceed]
    exact Joining.isDone_proceedBy hfinished (Nat.le_add_left ..)
  have hawait : (Joining.timed draw).await Joining.isDone grace j =
      ((Joining.timed draw).settle j, true) := by
    rw [Timed.await, if_neg (Nat.ne_of_gt hgrace), Timed.runUntil_of_done hdone]
  rw [stop, joinAll]
  simp only [j] at hawait hfleet
  simp only [hawait, hfleet, if_true]

/-- What some sessions do, one thing after the other. -/
def Fleet.acting (acts : List (Nat × Draw × Session.Task)) : List Fleet.Move :=
  acts.map fun a => .act a.1 a.2.1 a.2.2

namespace Order

/-! ## The law of the stop -/

/-- Connecting does not crash for any bot. -/
def NeverCrashes (o : Order) : Prop :=
  ∀ i, 1 ≤ i → i ≤ o.count → ∀ delay message, (o.script i).opening ≠ some (delay, .crashed message)

variable {o : Order} {reporter : Reporter} {r : Recruitment} {f : Fleet}

theorem NeverCrashes.not_crashed (h : o.NeverCrashes) (hr : r.Complete o reporter)
    (hf : r.fleet.Continues f) (hreckoned : f.Reckoned) :
    ∀ seat ∈ f.seats, ∀ message, seat.session.phase ≠ .crashed message := by
  intro seat hseat message hp
  obtain ⟨k, hk⟩ := List.mem_iff_getElem?.mp hseat
  obtain ⟨first, ms, hfirst, rfl⟩ := hf.exists_run hk
  have hlt : k < o.count := hr.handles ▸ (List.getElem?_eq_some_iff.mp hfirst).1
  obtain ⟨seat', v, hseat', -, hserves, -⟩ := hr.record k hlt
  cases hfirst.symm.trans hseat'
  obtain ⟨seen, hseen⟩ := hreckoned _ hseat
  obtain ⟨delay, hopening⟩ := hseen.crashed message hp
  obtain ⟨seen', hfollows, -, hscript, -⟩ := hserves.follows
  rw [Seat.script_run hfollows.coherent, hscript] at hopening
  exact h (k + 1) (Nat.le_add_left ..) hlt delay message hopening

/-- The records of a recruiting tell what the handles of its sessions tell, whatever becomes of
them. -/
theorem records_eq_answers (hr : r.Complete o {}) (hf : r.fleet.Continues f) :
    r.reporter.records.map (some ·.verdict) = f.seats.map Seat.answer := by
  rw [hr.reporter]
  refine List.ext_getElem? fun k => ?_
  rw [List.getElem?_map, List.getElem?_map]
  show (r.completed[k]?).map _ = _
  by_cases hk : k < o.count
  · obtain ⟨seat, v, hseat, -, hserves, hanswer, -, hrecord⟩ := hr.record k hk
    obtain ⟨ms, hrun⟩ := hf.run k seat hseat
    rw [hrecord, hrun, Option.map_some, Option.map_some, hserves.answer_run hanswer ms]
  · rw [List.getElem?_eq_none (by rw [hr.completed]; omega),
      List.getElem?_eq_none (by rw [hf.length, hr.handles]; omega)]
    rfl

/-- **A recruited fleet that was asked to stop has finished when it is at rest**, in whatever order
its sessions have come to rest, and then its accounts agree. -/
theorem concluded_of_atRest (h : o.NeverCrashes) (hfew : o.count < UInt64.size)
    (hr : r.Complete o {}) {ms : List Fleet.Move} (hf : r.fleet.Continues (Fleet.run {} ms))
    (hstopping : ∀ seat ∈ (Fleet.run {} ms).seats, seat.session.stopping = true)
    (acts : List (Nat × Draw × Session.Task))
    (hrest : ((Fleet.run {} ms).run (Fleet.acting acts)).AtRest) :
    Fleet.Concluded o.count r.reporter.records ((Fleet.run {} ms).run (Fleet.acting acts)) := by
  have hacts : (Fleet.run {} ms).Continues ((Fleet.run {} ms).run (Fleet.acting acts)) :=
    Fleet.continues_run _ (by simp [Fleet.acting])
  have hall := hf.trans hacts
  have hreckoned := Fleet.reckoned_run ms
  rw [← Fleet.run_append] at hrest hacts hall ⊢
  have hfinished : ∀ seat ∈ (Fleet.run {} (ms ++ Fleet.acting acts)).seats,
      seat.session.phase = .finished := by
    intro seat hseat
    have hover : seat.session.phase.isOver = true := by
      refine (hrest seat hseat).isOver ?_
      obtain ⟨k, hk⟩ := List.mem_iff_getElem?.mp hseat
      obtain ⟨before, own, hbefore, rfl⟩ := hacts.exists_run hk
      have hmem := List.mem_of_getElem? hbefore
      obtain ⟨seen, hseen⟩ := hreckoned before hmem
      exact (Seat.stopping_run hseen.follows.coherent own).mpr (.inl (hstopping before hmem))
    have hsound := h.not_crashed hr hall (Fleet.reckoned_run _) seat hseat
    cases hp : seat.session.phase with
    | finished => rfl
    | crashed message => exact absurd hp (hsound message)
    | _ => rw [hp] at hover; cases hover
  have hlength : (Fleet.run {} (ms ++ Fleet.acting acts)).seats.length = o.count :=
    hall.length.trans hr.handles
  rw [← hlength]
  exact Fleet.concluded_of_finished hfinished (hlength ▸ hfew) (records_eq_answers hr hall)

/-- There are never too many bots for the counters. -/
theorem lt_size_of_reserve {memory count : Nat} (h : reserve memory count = .ok ()) :
    count < UInt64.size := by
  have hroom := ((reserve_eq_ok_iff memory count).mp h).1
  have hmax : maxBytes < UInt64.size := by decide
  unfold handleBytes at hroom
  omega

/-- A fleet that has been recruited stops at once, whatever has happened to it since, and then its
accounts agree. The same holds in whatever order its sessions come to rest after they have been
asked to stop. -/
def Stops (o : Order) (r : Recruitment) : Prop :=
  ∀ later : List Fleet.Move, (∀ settings pace script, .launch settings pace script ∉ later) →
    let f := r.fleet.run later
    (∀ draw grace, 0 < grace → ∃ f', f.stop draw grace = (f', true) ∧ f'.now = f.now ∧
      Fleet.Concluded o.count r.reporter.records f') ∧
    ∀ acts, (f.requestStopAll.run (Fleet.acting acts)).AtRest →
      Fleet.Concluded o.count r.reporter.records (f.requestStopAll.run (Fleet.acting acts))

theorem stops_of_complete (h : o.NeverCrashes) {memory : Nat}
    (hreserve : reserve memory o.count = .ok ()) (hr : r.Complete o {}) {fms : List Fleet.Move}
    (hfms : r.fleet = Fleet.run {} fms) : o.Stops r := by
  intro later hlater f
  have hfew := lt_size_of_reserve hreserve
  have hlast : f.requestStopAll =
      Fleet.run {} (fms ++ later ++ (List.range f.seats.length).map .stop) := by
    rw [Fleet.requestStopAll_eq_run, Fleet.run_append, Fleet.run_append, ← hfms]
  have hcontinues : r.fleet.Continues f.requestStopAll := by
    rw [Fleet.requestStopAll_eq_run]
    exact (r.fleet.continues_run hlater).trans (f.continues_run (by simp))
  have hstopping := f.stopping_requestStopAll
  have hreckoned : f.requestStopAll.Reckoned := hlast ▸ Fleet.reckoned_run _
  have hconcluded (acts : List (Nat × Draw × Session.Task))
      (hrest : (f.requestStopAll.run (Fleet.acting acts)).AtRest) :
      Fleet.Concluded o.count r.reporter.records (f.requestStopAll.run (Fleet.acting acts)) := by
    rw [hlast] at hcontinues hstopping hrest ⊢
    exact concluded_of_atRest h hfew hr hcontinues hstopping acts hrest
  refine ⟨fun draw grace hgrace => ?_, hconcluded⟩
  have hcoherent : f.requestStopAll.Coherent := by
    intro seat hseat
    obtain ⟨seen, hseen⟩ := hreckoned seat hseat
    exact hseen.follows.coherent
  obtain ⟨acts, hacts⟩ := Fleet.exists_run_of_settle hcoherent draw
  have hsettle : f.requestStopAll.settle draw =
      f.requestStopAll.run (Fleet.acting (acts.map fun a => (a.1, draw, a.2))) := by
    rw [Fleet.acting, List.map_map]
    exact hacts.symm
  have hsettled : Fleet.Concluded o.count r.reporter.records (f.requestStopAll.settle draw) := by
    have hrest := Fleet.atRest_settle hcoherent draw
    rw [hsettle] at hrest ⊢
    exact hconcluded _ hrest
  have hsound := h.not_crashed hr hcontinues hreckoned
  exact ⟨_, Fleet.stop_of_finished hgrace hsound hsettled.finished, rfl, hsettled⟩

/-- **The law of the stop.** Let a fleet be recruited with a fresh tally and a fresh reporter, and
let connecting not crash for any bot, whatever else their scripts are. At any later instant,
whatever has happened to the sessions since, and whatever the grace is, as long as there is some,

* a stop says that it is done, and no time has passed;
* then every session has finished and none is active, every login has come to its end, and the
  started sessions are those that logged in and those that failed, as many as were ordered;
* the summary of the records has as many successes and failures as the tally, which the records know
  nothing of, and together they are the bots that were requested.

The same holds if the recruiter and the sessions take their steps in any other order, before and
after the request to stop. -/
theorem stop_concludes (o : Order) (hsound : o.NeverCrashes) :
    (∀ draw memory limit r, o.recruit draw memory limit = .ok (r, true) → o.Stops r) ∧
    ∀ memory ms, reserve memory o.count = .ok () →
      ((Recruitment.start o).run ms).isDone = true → o.Stops ((Recruitment.start o).run ms) := by
  have hrun (memory : Nat) (ms : List Recruitment.Move) (hreserve : reserve memory o.count = .ok ())
      (hdone : ((Recruitment.start o).run ms).isDone = true) :
      o.Stops ((Recruitment.start o).run ms) := by
    have hcomplete := ((Recruitment.sound_start o {}).run ms).complete hdone
    obtain ⟨fms, hfms⟩ := (Recruitment.start o).exists_fleet_run ms
    exact stops_of_complete hsound hreserve hcomplete hfms
  refine ⟨fun draw memory limit r hr => ?_, hrun⟩
  obtain ⟨hreserve, hdone⟩ := reserved_of_recruit hr
  obtain ⟨ms, -, -, rfl⟩ := exists_run_of_recruit hr
  exact hrun memory ms hreserve hdone

/-- Three bots: connecting fails for one, one logs in and stays, and one is kicked after its login.
They are stopped two milliseconds later. -/
theorem stop_concludes_mixed :
    let o : Order :=
      { target := ⟨"localhost", 25565, "1.21.4"⟩
        count := 3
        stagger := 5
        pace := some ⟨2, 1, 3⟩
        scripts := fun identity =>
          if identity = "Bot1" then { opening := some (0, .failed (.connect "refused")) }
          else if identity = "Bot2" then { events := [(0, .spawn), (0, .login)] }
          else { events := [(0, .login), (1, .kicked "idle")] } }
    let ms : List Recruitment.Move :=
      [.step, .act 0 .steady .work, .act 0 .steady .work, .step, .pass 5, .step, .step,
        .act 1 .steady .work, .act 1 .steady .work, .act 1 .steady .report, .act 1 .steady .work,
        .act 1 .steady .report, .act 1 .steady .work, .step, .pass 5, .step, .step,
        .act 2 .steady .work, .act 2 .steady .work, .act 2 .steady .report, .act 2 .steady .work,
        .step]
    let later : List Fleet.Move := [.pass 1, .act 2 .steady .report, .act 2 .steady .work, .pass 1]
    let r := (Recruitment.start o).run ms
    o.NeverCrashes ∧ reserve 1000 o.count = .ok () ∧ r.isDone = true ∧
      (r.fleet.run later).live = 1 ∧ ∃ f', (r.fleet.run later).stop .steady 1 = (f', true) ∧
        f'.now = 12 ∧ Fleet.Concluded 3 r.reporter.records f' := by
  intro o ms later r
  have hsound : o.NeverCrashes := by
    intro i hi hcount delay message
    have hthree : o.count = 3 := rfl
    obtain rfl | rfl | rfl : i = 1 ∨ i = 2 ∨ i = 3 := by omega
    · have hopening : (o.script 1).opening = some (0, .failed (.connect "refused")) := by decide
      simp [hopening]
    · have hopening : (o.script 2).opening = some (0, .opened) := by decide
      simp [hopening]
    · have hopening : (o.script 3).opening = some (0, .opened) := by decide
      simp [hopening]
  have hreserve : reserve 1000 o.count = .ok () := (reserve_eq_ok_iff 1000 3).mpr (by decide)
  have hdone : r.isDone = true := by decide
  have hstops : o.Stops r := (stop_concludes o hsound).2 1000 ms hreserve hdone
  obtain ⟨hstop, -⟩ := hstops later (by simp [later])
  obtain ⟨f', hf', hnow, hconcluded⟩ := hstop .steady 1 Nat.one_pos
  have hlive : (r.fleet.run later).live = 1 := by decide
  have hclock : (r.fleet.run later).now = 12 := by decide
  refine ⟨hsound, hreserve, hdone, hlive, f', hf', ?_, hconcluded⟩
  rw [hnow, hclock]

end Order

end BotFleet
