import BotFleet.Proofs.Fleet.Run
import BotFleet.Proofs.Session.Rest

/-!
# A fleet comes to rest

* `Seat.exists_run_of_settle`: a session that does everything it can makes some moves of its own;
* `Fleet.Goes`: every session of a fleet makes some moves, none of which is a request to stop;
* **`Fleet.goes_settle`**, **`Fleet.atRest_settle`**: a fleet that does everything it can goes on so,
  and comes to rest;
* `Fleet.wait_pos`, `Fleet.exists_wait_le`: at rest all that is due lies ahead, and a wait does not
  pass over anything.
-/

namespace BotFleet

theorem Journal.note_append (j : Journal) (now : Nat) (es es' : List Effect) :
    j.note now (es ++ es') = (j.note now es).note now es' :=
  List.foldl_append

namespace Session

theorem clock_steps {s : Session} (h : s.Coherent) (draw : Draw) (tasks : List Task) :
    (s.steps draw tasks).1.clock = s.clock := by
  induction tasks generalizing s with
  | nil => rfl
  | cons task tasks ih =>
    exact (ih (coherent_step h draw task)).trans (frame_step h draw task).clock

end Session

namespace Seat

theorem advance_steps {seat : Seat} (h : seat.session.Coherent) (draw : Draw)
    (tasks : List Session.Task) :
    seat.advance (seat.session.steps draw tasks) = seat.run (tasks.map (.act draw)) := by
  induction tasks generalizing seat with
  | nil => rfl
  | cons task tasks ih =>
    have hnext := Session.coherent_step h draw task
    have hclock := Session.clock_steps hnext draw tasks
    rw [List.map_cons, run_cons, ← ih (coherent_move seat (.act draw task) h)]
    simp only [advance, move, Session.steps, Journal.note_append, hclock]

/-- A session that does everything it can makes some moves of its own, and is at rest then. -/
theorem exists_run_of_settle {seat : Seat} (h : seat.session.Coherent) (draw : Draw) :
    ∃ ms, .stop ∉ ms ∧ seat.advance (seat.session.settle draw) = seat.run ms ∧
      (seat.run ms).session.AtRest := by
  obtain ⟨tasks, hrest, htasks⟩ := Session.settle_eq_steps h draw
  have hrun := advance_steps h draw tasks
  refine ⟨tasks.map (.act draw), by simp, htasks ▸ hrun, ?_⟩
  rw [← hrun]
  exact hrest

end Seat

namespace Fleet

/-- Every session of a fleet makes some moves, none of which is a request to stop. -/
structure Goes (f f' : Fleet) : Prop where
  length : f'.seats.length = f.seats.length
  run : ∀ (i : Nat) (seat : Seat), f.seats[i]? = some seat →
    ∃ ms : List Seat.Move, .stop ∉ ms ∧ f'.seats[i]? = some (seat.run ms)

theorem goes_move (f : Fleet) {m : Move} (hnew : m.newcomers f.now = [])
    (hstop : ∀ i, m.target? ≠ some (i, .stop)) : Goes f (f.move m) := by
  have hon (k : Nat) : .stop ∉ m.on k := by
    cases m with
    | stop i => exact absurd rfl (hstop i)
    | act i | change i | ask i => by_cases hi : i = k <;> simp [Move.on, Move.target?, hi]
    | _ => simp [Move.on, Move.target?]
  have hseats := seats_move f m
  rw [hnew, List.append_nil] at hseats
  refine ⟨by rw [hseats, List.length_mapIdx], fun i seat hi => ⟨m.on i, hon i, ?_⟩⟩
  rw [hseats, List.getElem?_mapIdx, hi]
  rfl

/-! ## Everything that can be done at an instant -/

/-- Every session of the fleet is at rest. -/
def AtRest (f : Fleet) : Prop := ∀ seat ∈ f.seats, seat.session.AtRest

/-- Every session of the fleet is coherent. -/
def Coherent (f : Fleet) : Prop := ∀ seat ∈ f.seats, seat.session.Coherent

theorem seats_settle (f : Fleet) (draw : Draw) :
    (f.settle draw).seats = f.seats.map fun seat => seat.advance (seat.session.settle draw) := by
  have hseats (seats : List Seat) (tally : Tally) : (settleSeats draw seats tally).1 =
      seats.map fun seat => seat.advance (seat.session.settle draw) := by
    induction seats generalizing tally with
    | nil => rfl
    | cons seat seats ih => exact congrArg (_ :: ·) (ih _)
  exact hseats f.seats f.tally

theorem goes_settle {f : Fleet} (h : f.Coherent) (draw : Draw) : Goes f (f.settle draw) := by
  have hseats := seats_settle f draw
  refine ⟨by rw [hseats, List.length_map], fun i seat hi => ?_⟩
  obtain ⟨ms, hms, hrun, -⟩ := Seat.exists_run_of_settle (h seat (List.mem_of_getElem? hi)) draw
  exact ⟨ms, hms, by rw [hseats, List.getElem?_map, hi, Option.map_some, hrun]⟩

theorem atRest_settle {f : Fleet} (h : f.Coherent) (draw : Draw) : (f.settle draw).AtRest := by
  intro seat hseat
  rw [seats_settle] at hseat
  obtain ⟨before, hbefore, rfl⟩ := List.mem_map.mp hseat
  obtain ⟨ms, -, hrun, hrest⟩ := Seat.exists_run_of_settle (h before hbefore) draw
  rw [hrun]
  exact hrest

/-! ## Waiting -/

theorem wait_pos {f : Fleet} (h : f.AtRest) {d : Nat} (hd : f.wait? = some d) : 0 < d := by
  obtain ⟨seat, hseat, hwait⟩ := List.mem_filterMap.mp (List.min?_mem hd)
  exact Session.wait_pos (h seat hseat) hwait

theorem exists_wait_le {f : Fleet} {seat : Seat} (hseat : seat ∈ f.seats) {d : Nat}
    (hd : seat.session.wait? = some d) : ∃ d', f.wait? = some d' ∧ d' ≤ d :=
  exists_min?_le (List.mem_filterMap.mpr ⟨seat, hseat, hd⟩)

theorem exists_sooner {wait? : Option Nat} (hwait : ∀ {d}, wait? = some d → 0 < d) {now due : Nat}
    (hdue : now < due) :
    ∃ d, sooner wait? (waitFor now [due]) = some d ∧ 0 < d ∧ now + d ≤ due := by
  have hone : waitFor now [due] = some (due - now) := by simp [waitFor, hdue]
  have hmem : due - now ∈ wait?.toList ++ (waitFor now [due]).toList := by simp [hone]
  obtain ⟨d, hd, hle⟩ := exists_min?_le hmem
  refine ⟨d, hd, ?_, by omega⟩
  rcases List.mem_append.mp (List.min?_mem hd) with hd | hd
  · exact hwait (Option.mem_toList.mp hd)
  · rw [hone] at hd
    cases List.mem_singleton.mp hd
    omega

end Fleet

end BotFleet
