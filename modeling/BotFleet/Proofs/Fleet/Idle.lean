import BotFleet.Proofs.Clock.Elapse
import BotFleet.Proofs.Fleet.Rest
import BotFleet.Proofs.Seat.Timely

/-!
# A fleet between the instants at which something is due

A session at rest has nothing to do until something is due, and neither has a fleet.

* **`Session.settle_of_atRest`**, **`Session.AtRest.pass`**: a session at rest does nothing, and
  stays at rest before something is due;
* `Fleet.settle_of_atRest`, `Fleet.AtRest.pass`: the same for a fleet;
* **`Fleet.steady_timed`**: the waits of a fleet pass over nothing, whatever other instants it wakes
  up at.
-/

namespace BotFleet

theorem Routine.not_ready_before {r : Routine} {c c' : Situation}
    (h : ∀ task, r.ready c task = false) (hcancelled : c'.cancelled = c.cancelled)
    (hdue : ∀ due ∈ r.moving.due?.toList ++ r.chatting.due?.toList ++ r.releases, c'.now < due)
    (task : Task) : r.ready c' task = false := by
  have hactivity {a : Activity} (ha : activityReady c a = false)
      (hdue : ∀ due ∈ a.due?.toList, c'.now < due) : activityReady c' a = false := by
    cases a with
    | running t =>
      have hlt := hdue t.due (by simp [Activity.due?])
      rw [activityReady, Bool.or_eq_false_iff] at ha ⊢
      exact ⟨hcancelled ▸ ha.1, by simpa using hlt⟩
    | _ => rfl
  cases task with
  | move => exact hactivity (h .move) fun due hd => hdue due (by simp [Option.mem_toList.mp hd])
  | chat => exact hactivity (h .chat) fun due hd => hdue due (by simp [Option.mem_toList.mp hd])
  | release i =>
    have hrelease := h (.release i)
    cases hi : r.releases[i]? with
    | none => rw [ready, hi]
    | some due =>
      have hlt := hdue due (List.mem_append_right _ (List.mem_of_getElem? hi))
      rw [ready, hi] at hrelease ⊢
      rw [Bool.or_eq_false_iff] at hrelease ⊢
      exact ⟨hcancelled ▸ hrelease.1, by simpa using hlt⟩

namespace Session

variable {s : Session} {d : Nat}

/-- **A session at rest does nothing.** -/
theorem settle_of_atRest (h : s.AtRest) (draw : Draw) : s.settle draw = (s, []) := by
  rw [settle]
  cases s.stepsEnough with
  | zero => rfl
  | succ fuel => rw [settleIn, atRest_iff.mp h]

section Pass

variable (h : s.AtRest) (hd : ∀ w ∈ s.wait?, d < w)
include h hd

theorem not_ready_work_pass : (s.pass d).ready .work = false := by
  have hmay : s.MayPass (d + 1) := ⟨h, hd⟩
  have hwork := h .work
  cases hp : s.phase with
  | fresh => rw [ready_of_fresh hp] at hwork; cases hwork
  | connecting due =>
    rw [ready_of_connecting hp, Bool.or_eq_false_iff] at hwork
    rw [ready_of_connecting (s := s.pass d) hp, Bool.or_eq_false_iff]
    refine ⟨hwork.1, ?_⟩
    cases due with
    | none => rfl
    | some due =>
      have hahead : s.clock < due := by simpa using hwork.2
      have hle := hmay.le_of_expects (.inl hp) hahead
      have hlt : s.clock + d < due := by omega
      exact decide_eq_false (Nat.not_le_of_lt hlt)
  | running =>
    rw [ready_of_running hp] at hwork
    rwa [ready_of_running (s := s.pass d) hp]
  | finished | crashed => exact not_ready_of_isOver (s := s.pass d) (by rw [Session.pass, hp]; rfl)

theorem not_ready_report_pass : (s.pass d).ready .report = false := by
  have hmay : s.MayPass (d + 1) := ⟨h, hd⟩
  have hreport := h .report
  unfold ready at hreport ⊢
  cases hp : s.phase with
  | running =>
    cases hf : s.feed with
    | nil => simp [Session.pass, hp, hf]
    | cons x rest =>
      have hahead : s.clock < x.1 := by simpa [hp, hf] using hreport
      have hle := hmay.le_of_expects (.inr ⟨hp, by rw [hf]; rfl⟩) hahead
      have hlt : s.clock + d < x.1 := by omega
      simpa [Session.pass, hp, hf] using hlt
  | _ => simp [Session.pass, hp]

theorem not_ready_routine_pass (task : Routine.Task) :
    (s.pass d).ready (.routine task) = false := by
  cases hr : s.routine with
  | none => simp [ready, Session.pass, hr]
  | some r =>
    have hroutine (task : Routine.Task) : r.ready s.situation task = false := by
      have hready := h (.routine task)
      rwa [ready, hr] at hready
    have hready : (s.pass d).ready (.routine task) = r.ready (s.pass d).situation task := by
      rw [ready, Session.pass, hr]
      rfl
    have hcancelled : (s.pass d).situation.cancelled = s.situation.cancelled := rfl
    rw [hready]
    refine Routine.not_ready_before hroutine hcancelled (fun due hdue => ?_) task
    obtain ⟨w, hw, hle⟩ := exists_wait_le_of_due hr hdue
    have hlt := hd w hw
    show s.clock + d < due
    omega

/-- **A session at rest stays at rest before something is due.** -/
theorem AtRest.pass : (s.pass d).AtRest
  | .work => not_ready_work_pass h hd
  | .report => not_ready_report_pass h hd
  | .routine task => not_ready_routine_pass h hd task

end Pass

end Session

namespace Fleet

variable {f : Fleet} {d : Nat}

theorem settle_of_atRest (h : f.AtRest) (draw : Draw) : f.settle draw = f := by
  have hseats (seats : List Seat) (hrest : ∀ seat ∈ seats, seat.session.AtRest) (tally : Tally) :
      settleSeats draw seats tally = (seats, tally) := by
    induction seats generalizing tally with
    | nil => rfl
    | cons seat seats ih =>
      obtain ⟨hseat, hrest⟩ := List.forall_mem_cons.mp hrest
      rw [settleSeats, Session.settle_of_atRest hseat]
      simp only [Tally.applyAll, List.foldl_nil, ih hrest]
      rfl
  rw [settle, hseats f.seats h]

theorem AtRest.pass (h : f.AtRest) (hd : ∀ w ∈ f.wait?, d < w) : (f.pass d).AtRest := by
  intro seat hseat
  obtain ⟨before, hbefore, rfl⟩ := List.mem_map.mp hseat
  refine (h before hbefore).pass fun w hw => ?_
  obtain ⟨w', hw', hle⟩ := exists_wait_le hbefore hw
  exact Nat.lt_of_lt_of_le (hd w' hw') hle

theorem Goes.coherent {f' : Fleet} (h : Goes f f') (hc : f.Coherent) : f'.Coherent := by
  intro seat hseat
  obtain ⟨i, hi⟩ := List.mem_iff_getElem?.mp hseat
  have hlt : i < f.seats.length := h.length ▸ (List.getElem?_eq_some_iff.mp hi).1
  obtain ⟨ms, -, hrun⟩ := h.run i _ (List.getElem?_eq_getElem hlt)
  cases hi.symm.trans hrun
  exact Seat.coherent_run (hc _ (List.getElem_mem hlt)) ms

theorem goes_pass (f : Fleet) (d : Nat) : Goes f (f.pass d) :=
  f.goes_move (m := .pass d) rfl (by simp [Move.target?])

theorem coherent_run_empty (ms : List Move) : (Fleet.run {} ms).Coherent :=
  forall_seats_run (P := (·.session.Coherent)) Seat.coherent_fresh Seat.coherent_move (by simp) ms

theorem pass_zero (f : Fleet) : f.pass 0 = f := by
  have hseats : f.seats.map (fun seat => { seat with session := seat.session.pass 0 }) = f.seats :=
    List.map_id' f.seats
  rw [pass, hseats]
  rfl

theorem pass_pass (f : Fleet) (d d' : Nat) : (f.pass d).pass d' = f.pass (d + d') := by
  simp [pass, Session.pass, Nat.add_assoc]

theorem of_lt_sooner {a b : Option Nat} (h : ∀ w ∈ sooner a b, d < w) :
    (∀ w ∈ a, d < w) ∧ ∀ w ∈ b, d < w := by
  have hall (w : Nat) (hw : w ∈ a.toList ++ b.toList) : d < w := by
    obtain ⟨w', hw', hle⟩ := exists_min?_le hw
    exact Nat.lt_of_lt_of_le (h w' hw') hle
  exact ⟨fun w hw => hall w (List.mem_append_left _ (Option.mem_toList.mpr hw)),
    fun w hw => hall w (List.mem_append_right _ (Option.mem_toList.mpr hw))⟩

theorem waitFor_pos {now : Nat} {instants : List Nat} {w : Nat} (hw : w ∈ waitFor now instants) :
    0 < w := by
  obtain ⟨t, ht, rfl⟩ := List.mem_map.mp (List.min?_mem hw)
  exact Nat.sub_pos_of_lt (by simpa using (List.mem_filter.mp ht).2)

theorem add_lt_of_lt_waitFor {now : Nat} {instants : List Nat}
    (h : ∀ w ∈ waitFor now instants, d < w) {t : Nat} (ht : t ∈ instants) (hahead : now < t) :
    now + d < t := by
  have hmem : t - now ∈ (instants.filter (now < ·)).map (· - now) :=
    List.mem_map_of_mem (List.mem_filter.mpr ⟨ht, decide_eq_true hahead⟩)
  obtain ⟨w, hw, hle⟩ := exists_min?_le hmem
  have hlt := h w hw
  omega

theorem atRest_of_settle_eq (h : f.Coherent) {draw : Draw} (hs : f.settle draw = f) : f.AtRest :=
  hs ▸ atRest_settle h draw

theorem wait_pos_timed (h : f.AtRest) {draw : Draw} {alarms : List Nat} {w : Nat}
    (hw : w ∈ (timed draw alarms).wait? f) : 0 < w := by
  rcases List.mem_append.mp (List.min?_mem hw) with hw | hw
  · exact wait_pos h (Option.mem_toList.mp hw)
  · exact waitFor_pos (Option.mem_toList.mp hw)

/-- **The waits of a fleet pass over nothing.** -/
theorem steady_timed (draw : Draw) (alarms : List Nat) :
    (timed draw alarms).Steady Fleet.Coherent where
  settle _ h := (goes_settle h draw).coherent h
  pass f d h := (f.goes_pass d).coherent h
  settled _ h := settle_of_atRest (atRest_settle h draw) draw
  pass_zero := pass_zero
  pass_pass := pass_pass
  wait_pos _ h hs _ hw := wait_pos_timed (atRest_of_settle_eq h hs) hw
  idle _ h hs _ hd :=
    settle_of_atRest ((atRest_of_settle_eq h hs).pass (of_lt_sooner hd).1) draw

end Fleet

end BotFleet
