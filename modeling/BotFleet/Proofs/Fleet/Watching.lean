import BotFleet.Fleet.Watching
import BotFleet.Proofs.Fleet.Idle
import BotFleet.Proofs.Seat.Ended

/-!
# Who waits for one session after the other waits for all of them

Sessions that are over stay so. Whoever waits for one after the other therefore has waited for all of
them as soon as the last of them has ended, in whatever order they have.

* `Fleet.hasEnded`, **`Fleet.Goes.hasEnded`**: a session is over, and stays so;
* `Watching.Sound`, `Watching.Stuck`: those that were passed over are over, and there is nobody else
  to pass over;
* **`Watching.Sound.isDone_iff`**: such a wait is done if and only if all sessions are over;
* **`Watching.steady_timed`**: its waits pass over nothing;
* **`Watching.fleet_after`**, **`Watching.isDone_after`**: it does not touch the fleet, and is done
  as soon as all sessions of the fleet are over.
-/

namespace BotFleet

/-! ## Sessions that are over -/

theorem Session.Coherent.isOver_eq {s : Session} (h : s.Coherent) : s.isOver = s.phase.isOver := by
  rw [isOver]
  cases ht : s.isTerminated with
  | false => rfl
  | true => rw [h.isTerminated_iff.mp ht]; rfl

theorem Seat.isOver_run {seat : Seat} (hc : seat.session.Coherent)
    (ho : seat.session.isOver = true) (ms : List Move) : (seat.run ms).session.isOver = true := by
  have hphase : (seat.run ms).session.phase.isOver = true :=
    run_induction (P := fun seat => seat.session.phase.isOver = true) (hc.isOver_eq ▸ ho)
      (fun seat m ho => (isOver_move ho m).1 ▸ ho) ms
  rwa [(coherent_run hc ms).isOver_eq]

namespace Fleet

variable {f f' : Fleet} {i d : Nat}

/-- A session of a fleet is over. Nobody is waited for who is not there. -/
def hasEnded (f : Fleet) (i : Nat) : Bool := f.seats[i]?.all (·.session.isOver)

theorem hasEnded_of_length_le (h : f.seats.length ≤ i) : f.hasEnded i = true := by
  rw [hasEnded, List.getElem?_eq_none h]
  rfl

theorem Goes.hasEnded (h : Goes f f') (hc : f.Coherent) (hi : f.hasEnded i = true) :
    f'.hasEnded i = true := by
  unfold Fleet.hasEnded at hi ⊢
  cases hseat : f.seats[i]? with
  | none =>
    rw [List.getElem?_eq_none_iff, ← h.length] at hseat
    exact hasEnded_of_length_le hseat
  | some seat =>
    obtain ⟨ms, -, hrun⟩ := h.run i seat hseat
    rw [hrun, Option.all_some]
    rw [hseat, Option.all_some] at hi
    exact Seat.isOver_run (hc seat (List.mem_of_getElem? hseat)) hi ms

theorem hasEnded_pass (f : Fleet) (d i : Nat) : (f.pass d).hasEnded i = f.hasEnded i := by
  rw [hasEnded, pass, List.getElem?_map, Option.all_map]
  rfl

end Fleet

/-! ## One session after the other -/

namespace Watching

variable {w : Watching} {count : Nat}

/-- The sessions that have been passed over are over. -/
structure Sound (w : Watching) : Prop where
  coherent : w.fleet.Coherent
  passed : ∀ i, i < w.passed → w.fleet.hasEnded i = true

/-- There is nobody to pass over. -/
def Stuck (w : Watching) : Prop := w.isDone = true ∨ w.fleet.hasEnded w.passed = false

theorem proceedBy_succ (w : Watching) (count : Nat) : w.proceedBy (count + 1) =
    if w.passed < w.fleet.seats.length ∧ w.fleet.hasEnded w.passed = true then
      proceedBy { w with passed := w.passed + 1 } count
    else w := by
  rw [proceedBy, Fleet.hasEnded]
  cases hseat : w.fleet.seats[w.passed]? with
  | none => simp [Nat.not_lt.mpr (List.getElem?_eq_none_iff.mp hseat)]
  | some seat => simp [(List.getElem?_eq_some_iff.mp hseat).1]

theorem proceedBy_of_stuck (h : w.Stuck) (count : Nat) : w.proceedBy count = w := by
  cases count with
  | zero => rfl
  | succ count =>
    rw [proceedBy_succ, if_neg]
    rintro ⟨hlt, hended⟩
    rcases h with hdone | hopen
    · exact absurd (of_decide_eq_true hdone) (Nat.not_le_of_lt hlt)
    · rw [hended] at hopen
      cases hopen

theorem fleet_proceedBy (w : Watching) (count : Nat) : (w.proceedBy count).fleet = w.fleet := by
  induction count generalizing w with
  | zero => rfl
  | succ count ih =>
    rw [proceedBy_succ]
    split
    · exact ih _
    · rfl

theorem Sound.proceedBy (h : w.Sound) (count : Nat) : (w.proceedBy count).Sound := by
  induction count generalizing w with
  | zero => exact h
  | succ count ih =>
    rw [proceedBy_succ]
    split
    · rename_i hnext
      refine ih ⟨h.coherent, fun i hi => ?_⟩
      rcases Nat.lt_succ_iff_lt_or_eq.mp hi with hi | rfl
      · exact h.passed i hi
      · exact hnext.2
    · exact h

theorem stuck_proceedBy (h : w.fleet.seats.length ≤ w.passed + count) :
    (w.proceedBy count).Stuck := by
  induction count generalizing w with
  | zero => exact .inl (decide_eq_true h)
  | succ count ih =>
    rw [proceedBy_succ]
    split
    · exact ih (w := { w with passed := w.passed + 1 }) (by simp only; omega)
    · rename_i hstop
      rcases Nat.lt_or_ge w.passed w.fleet.seats.length with hlt | hge
      · exact .inr (by simpa using fun hended => hstop ⟨hlt, hended⟩)
      · exact .inl (decide_eq_true hge)

/-- **Whoever waits for one session after the other waits for all of them.** -/
theorem Sound.isDone_iff (h : w.Sound) (hstuck : w.Stuck) :
    w.isDone = true ↔ ∀ i, w.fleet.hasEnded i = true := by
  refine ⟨fun hdone i => ?_, fun hall => hstuck.resolve_right (by simp [hall])⟩
  rcases Nat.lt_or_ge i w.passed with hi | hi
  · exact h.passed i hi
  · exact Fleet.hasEnded_of_length_le (Nat.le_trans (of_decide_eq_true hdone) hi)

/-! ## The wait in time -/

variable {draw : Draw} {alarms : List Nat}

theorem fleet_settle (w : Watching) :
    ((timed draw alarms).settle w).fleet = w.fleet.settle draw :=
  fleet_proceedBy ..

theorem stuck_settle (w : Watching) : ((timed draw alarms).settle w).Stuck :=
  stuck_proceedBy (Nat.le_add_left ..)

theorem stuck_of_settle_eq (h : (timed draw alarms).settle w = w) : w.Stuck :=
  h ▸ stuck_settle w

theorem atRest_of_settle_eq (hw : w.Sound) (h : (timed draw alarms).settle w = w) :
    w.fleet.AtRest :=
  Fleet.atRest_of_settle_eq hw.coherent ((fleet_settle w).symm.trans (congrArg fleet h))

theorem settle_of_atRest (h : w.fleet.AtRest) (hstuck : w.Stuck) :
    (timed draw alarms).settle w = w := by
  have hfleet := Fleet.settle_of_atRest h draw
  show Watching.proceed { w with fleet := w.fleet.settle draw } = w
  rw [hfleet]
  exact proceedBy_of_stuck hstuck _

/-- **The waits pass over nothing.** -/
theorem steady_timed (draw : Draw) (alarms : List Nat) : (timed draw alarms).Steady Sound where
  settle w h := by
    have hgoes := Fleet.goes_settle h.coherent draw
    exact Sound.proceedBy (w := { w with fleet := w.fleet.settle draw })
      ⟨hgoes.coherent h.coherent, fun i hi => hgoes.hasEnded h.coherent (h.passed i hi)⟩ _
  pass w d h := by
    have hgoes := w.fleet.goes_pass d
    exact ⟨hgoes.coherent h.coherent, fun i hi => hgoes.hasEnded h.coherent (h.passed i hi)⟩
  settled w h := by
    refine settle_of_atRest ?_ (stuck_settle w)
    rw [fleet_settle]
    exact Fleet.atRest_settle h.coherent draw
  pass_zero w := congrArg (fun fleet => { w with fleet }) w.fleet.pass_zero
  pass_pass w d d' := congrArg (fun fleet => { w with fleet }) (w.fleet.pass_pass d d')
  wait_pos w h hs d hd := by
    have hwait : d ∈ (Fleet.timed draw alarms).wait? w.fleet := hd
    exact Fleet.wait_pos_timed (atRest_of_settle_eq h hs) hwait
  idle w h hs d hd := by
    refine settle_of_atRest ((atRest_of_settle_eq h hs).pass (Fleet.of_lt_sooner hd).1) ?_
    rcases stuck_of_settle_eq hs with hdone | hopen
    · exact .inl (by simpa [timed, isDone, Fleet.pass] using hdone)
    · exact .inr ((Fleet.hasEnded_pass ..).trans hopen)

theorem fleet_after (w : Watching) (d : Nat) :
    ((timed draw alarms).after d w).fleet = (Fleet.timed draw).after d w.fleet := by
  induction d with
  | zero => exact fleet_settle w
  | succ d ih =>
    rw [Timed.after, fleet_settle, Timed.after, ← ih]
    rfl

theorem isDone_after (h : w.Sound) (d : Nat) : ((timed draw alarms).after d w).isDone = true ↔
    ∀ i, ((Fleet.timed draw).after d w.fleet).hasEnded i = true := by
  have hsteady := steady_timed draw alarms
  have hfleet : ((timed draw alarms).after d w).fleet = (Fleet.timed draw).after d w.fleet :=
    fleet_after w d
  rw [← hfleet]
  exact (hsteady.keeps_after h d).isDone_iff (stuck_of_settle_eq (hsteady.settle_after h d))

theorem sound_start {f : Fleet} (h : f.Coherent) : (start f).Sound :=
  Sound.proceedBy (w := { fleet := f }) ⟨h, fun i hi => absurd hi (Nat.not_lt_zero i)⟩ _

end Watching

end BotFleet
