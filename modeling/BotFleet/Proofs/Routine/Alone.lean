import BotFleet.Proofs.Seat.Ticks
import BotFleet.Routine.Alone

/-!
# Runs of a routine on its own

A routine with a client, under any order of steps and of what comes from outside, in time.

* `RoutineRun.Move`, `RoutineRun.move`, `RoutineRun.run`: what may happen to a routine, in any order;
* `RoutineRun.history`: the turns that it takes and its cancellation, and when;
* `RoutineRun.Timely`: runs in time, which passes only when nothing can be done, and not beyond what
  is due next;
* `RoutineRun.Keeps`, **`RoutineRun.keeps_run`**: the routine keeps to its pace;
* **`RoutineRun.timedDeeds_run`**, **`RoutineRun.lawful_history`**: it does no deeds but those of its
  turns, and they are lawful.
-/

namespace BotFleet.RoutineRun

/-- What may happen to a routine on its own: it does something, its client responds differently from
now on, it is cancelled, or time passes. -/
inductive Move where
  | act (draw : Draw) (task : Routine.Task)
  | change (responses : Client.Responses)
  | cancel
  | pass (ms : Nat)
deriving DecidableEq

def move (r : RoutineRun) : Move → RoutineRun
  | .act draw task => r.step draw task
  | .change responses => { r with responses }
  | .cancel => r.cancel
  | .pass ms => { r with now := r.now + ms }

/-- Any number of moves in any order. -/
def run (r : RoutineRun) (ms : List Move) : RoutineRun := ms.foldl move r

/-- What happens to the routine in a move. -/
def marks (r : RoutineRun) : Move → List Mark
  | .act draw task =>
    if r.routine.ready r.situation task ∧ r.cancelled = false then
      [.turn ⟨task.kind, r.responses, (r.routine.step r.situation draw task).2⟩]
    else []
  | .cancel => [.stop]
  | _ => []

/-- What happens to the routine in a move, and when. -/
def recent (r : RoutineRun) (m : Move) : History := (r.marks m).map (r.now, ·)

/-- What happens to the routine during a run, and when. -/
def history : RoutineRun → List Move → History
  | _, [] => []
  | r, m :: ms => r.recent m ++ history (r.move m) ms

/-! ## Time -/

/-- Nothing can be done at this instant. -/
def AtRest (r : RoutineRun) : Prop := ∀ task, r.routine.ready r.situation task = false

theorem atRest_iff {r : RoutineRun} : r.AtRest ↔ r.routine.firstReady r.situation = none := by
  refine ⟨fun h => ?_, Routine.not_ready_of_firstReady⟩
  cases hf : r.routine.firstReady r.situation with
  | none => rfl
  | some task => cases (h task).symm.trans (Routine.ready_of_firstReady hf)

instance (r : RoutineRun) : Decidable r.AtRest := decidable_of_iff _ atRest_iff.symm

/-- Time may pass: there is nothing to do, and nothing becomes due before. -/
def MayPass (r : RoutineRun) (d : Nat) : Prop := r.AtRest ∧ ∀ w ∈ r.routine.wait? r.now, d ≤ w

/-- Time passes only when it may. Everything else may happen at any time. -/
def Allows (r : RoutineRun) : Move → Prop
  | .pass d => r.MayPass d
  | _ => True

/-- A run in time. -/
def Timely : RoutineRun → List Move → Prop
  | _, [] => True
  | r, m :: ms => r.Allows m ∧ Timely (r.move m) ms

instance (r : RoutineRun) (d : Nat) : Decidable (r.MayPass d) := by
  unfold MayPass
  infer_instance

instance (r : RoutineRun) (m : Move) : Decidable (r.Allows m) := by
  unfold Allows
  split <;> infer_instance

instance decidableTimely : ∀ (r : RoutineRun) (ms : List Move), Decidable (r.Timely ms)
  | _, [] => .isTrue trivial
  | r, m :: ms => @instDecidableAnd _ _ _ (decidableTimely (r.move m) ms)

theorem MayPass.le_of_due {r : RoutineRun} {d due : Nat} (h : r.MayPass d)
    (hdue : due ∈ r.routine.dues) (hle : r.now ≤ due) : r.now + d ≤ due := by
  obtain ⟨w, hw, hwle⟩ := exists_min?_le (List.mem_map_of_mem (f := (· - r.now)) hdue)
  have := h.2 w hw
  omega

/-- What every move in time keeps holds after every run in time, together with its history. -/
theorem timely_induction {P : RoutineRun → History → Prop} {r : RoutineRun} {h : History}
    (hp : P r h) {ms : List Move} (htimely : r.Timely ms)
    (hmove : ∀ r h m, r.Allows m → P r h → P (r.move m) (h ++ r.recent m)) :
    P (r.run ms) (h ++ r.history ms) := by
  induction ms generalizing r h with
  | nil => rwa [history, List.append_nil]
  | cons m ms ih =>
    rw [history, ← List.append_assoc]
    exact ih (hmove r h m htimely.1 hp) htimely.2

/-! ## What a step comes to -/

/-- A step either finds nothing to do, or fades because the routine is cancelled, or is a turn. -/
inductive Acted (r : RoutineRun) (draw : Draw) (task : Routine.Task) : Prop where
  | idle : r.step draw task = r → r.marks (.act draw task) = [] → Acted r draw task
  | faded (routine : Routine) (es : List Effect) : r.cancelled = true →
      Routine.Stepped r.routine r.situation task routine es →
      r.step draw task = r.advance (routine, es) → r.marks (.act draw task) = [] →
      Acted r draw task
  | turned (routine : Routine) (u : Turn) : r.cancelled = false →
      Routine.Turned r.routine r.situation u.kind routine → u.responses = r.responses → u.Lawful →
      r.step draw task = r.advance (routine, u.effects) →
      r.marks (.act draw task) = [.turn u] → Acted r draw task

theorem acted (r : RoutineRun) (draw : Draw) (task : Routine.Task) : Acted r draw task := by
  cases hready : r.routine.ready r.situation task with
  | false =>
    refine .idle ?_ (by simp [marks, hready])
    rw [step, Routine.step_of_not_ready hready]
    rfl
  | true =>
    cases hc : r.cancelled with
    | true =>
      exact .faded _ _ hc (Routine.stepped hready draw) rfl (by simp [marks, hc])
    | false =>
      exact .turned _ ⟨task.kind, r.responses, (r.routine.step r.situation draw task).2⟩ hc
        (Routine.turned hready hc draw) rfl (Routine.lawful_step hready hc draw) rfl
        (by simp [marks, hready, hc])

/-! ## The pace -/

/-- A routine that keeps to its pace since it started, and was cancelled when its history says so. -/
structure Keeps (pace : Pace) (r : RoutineRun) (h : History) : Prop where
  follows : r.routine.Follows pace 0 h.turnsOf h.endedAt r.now
  cancelled : r.cancelled = h.endedAt.isSome

variable {r : RoutineRun} {h : History} {pace : Pace}

theorem keeps_start (identity : String) (responses : Client.Responses) (pace : Pace) :
    Keeps pace (start identity responses false pace) [] :=
  ⟨Routine.follows_attach pace 0, rfl⟩

theorem Keeps.act (hk : Keeps pace r h) (draw : Draw) (task : Routine.Task) :
    Keeps pace (r.step draw task) (h ++ r.recent (.act draw task)) := by
  rcases r.acted draw task with ⟨hs, hm⟩ | ⟨routine, es, hc, hstepped, hs, hm⟩ |
    ⟨routine, u, hc, hturned, hresponses, -, hs, hm⟩
  · rw [hs, recent, hm, List.map_nil, List.append_nil]
    exact hk
  · rw [hs, recent, hm, List.map_nil, List.append_nil]
    exact ⟨hk.follows.fade (hk.cancelled ▸ hc) hstepped hc, hk.cancelled⟩
  · have hnone : h.endedAt = none := by
      rw [← Option.not_isSome_iff_eq_none, ← hk.cancelled, hc]
      exact Bool.false_ne_true
    rw [hs, recent, hm, List.map_singleton]
    have hended : History.endedAt (h ++ [(r.now, .turn u)]) = none := by
      rw [History.endedAt_append, hnone]
      rfl
    refine ⟨?_, hc.trans (by rw [hended]; rfl)⟩
    rw [hended]
    refine (hnone ▸ hk.follows).turn (c := r.situation) hturned hresponses fun k => ?_
    rw [History.turnsOf_append]
    by_cases hkind : u.kind = k <;>
      simp [History.turnsOf, History.turns, Mark.turn?, hkind, situation]

theorem Keeps.move (hk : Keeps pace r h) {m : Move} (hm : r.Allows m) :
    Keeps pace (r.move m) (h ++ r.recent m) := by
  cases m with
  | act draw task => exact hk.act draw task
  | change responses => exact (List.append_nil h).symm ▸ ⟨hk.follows, hk.cancelled⟩
  | cancel =>
    have hended : History.endedAt (h ++ r.recent .cancel) = h.endedAt.or (some r.now) :=
      History.endedAt_append ..
    have hturns : History.turnsOf (h ++ r.recent .cancel) = h.turnsOf := by
      funext k
      rw [History.turnsOf_append]
      exact List.append_nil _
    exact ⟨by rw [hended, hturns]; exact hk.follows.cancel, by simp [hended, RoutineRun.move, cancel]⟩
  | pass d =>
    rw [show r.recent (.pass d) = [] from rfl, List.append_nil]
    refine ⟨hk.follows.pass fun hnone due hdue => ?_, hk.cancelled⟩
    exact MayPass.le_of_due hm hdue ((hnone ▸ hk.follows).ahead due hdue)

/-- **A routine keeps to its pace, whatever happens in time.** -/
theorem keeps_run (identity : String) (responses : Client.Responses) (pace : Pace) {ms : List Move}
    (h : (start identity responses false pace).Timely ms) :
    Keeps pace ((start identity responses false pace).run ms)
      ((start identity responses false pace).history ms) :=
  timely_induction (h := []) (keeps_start identity responses pace) h fun _ _ _ hm hk => hk.move hm

/-! ## Deeds -/

/-- The calls on the client, and the counting of them, with their instants. -/
def timedDeeds (r : RoutineRun) : List (Nat × Effect) := r.journal.toList.filter (·.2.isDeed)

theorem timedDeeds_advance (r : RoutineRun) (routine : Routine) (es : List Effect) :
    (r.advance (routine, es)).timedDeeds =
      r.timedDeeds ++ (es.filter Effect.isDeed).map (r.now, ·) := by
  rw [timedDeeds, advance, Journal.toList_note, List.filter_append, List.filter_map]
  rfl

theorem timedDeeds_move (r : RoutineRun) (m : Move) : (r.move m).timedDeeds =
    r.timedDeeds ++ (r.recent m).turns.flatMap fun x => x.2.deeds.map (x.1, ·) := by
  cases m with
  | act draw task =>
    rw [move]
    rcases r.acted draw task with ⟨hs, hm⟩ | ⟨routine, es, hc, hstepped, hs, hm⟩ |
      ⟨routine, u, -, -, -, -, hs, hm⟩
    · rw [hs, recent, hm]
      exact (List.append_nil _).symm
    · rw [hs, recent, hm, timedDeeds_advance,
        Effect.filter_isDeed_of_isLog (hstepped.cancelled hc)]
      rfl
    · rw [hs, recent, hm, timedDeeds_advance]
      simp [History.turns, Mark.turn?, Turn.deeds]
  | _ => exact (List.append_nil _).symm

/-- **A routine does no deeds but those of its turns**, at their instants and in their order. -/
theorem timedDeeds_run (r : RoutineRun) (ms : List Move) : (r.run ms).timedDeeds =
    r.timedDeeds ++ (r.history ms).turns.flatMap fun x => x.2.deeds.map (x.1, ·) := by
  induction ms generalizing r with
  | nil => exact (List.append_nil _).symm
  | cons m ms ih =>
    show ((r.move m).run ms).timedDeeds = _
    rw [ih, timedDeeds_move, history, History.turns_append, List.flatMap_append, List.append_assoc]

/-- **The turns of a routine are lawful.** -/
theorem lawful_history (r : RoutineRun) (ms : List Move) :
    ∀ x ∈ (r.history ms).turns, x.2.Lawful := by
  induction ms generalizing r with
  | nil => simp [history, History.turns]
  | cons m ms ih =>
    intro x hx
    rw [history, History.turns_append] at hx
    rcases List.mem_append.mp hx with hx | hx
    · cases m with
      | act draw task =>
        rcases r.acted draw task with ⟨-, hm⟩ | ⟨-, -, -, -, -, hm⟩ |
          ⟨-, u, -, -, -, hlawful, -, hm⟩ <;>
          rw [recent, hm] at hx
        · cases hx
        · cases hx
        · obtain rfl : x = (r.now, u) := List.mem_singleton.mp hx
          exact hlawful
      | _ => cases hx
    · exact ih _ x hx

theorem sorted_history (r : RoutineRun) (ms : List Move) :
    (∀ x ∈ r.history ms, r.now ≤ x.1) ∧ (r.history ms).Pairwise fun x y => x.1 ≤ y.1 := by
  induction ms generalizing r with
  | nil => exact ⟨by simp [history], .nil⟩
  | cons m ms ih =>
    have hrecent : ∀ x ∈ r.recent m, x.1 = r.now := by
      intro x hx
      obtain ⟨mark, -, rfl⟩ := List.mem_map.mp hx
      rfl
    have hmove : r.now ≤ (r.move m).now := by
      cases m with
      | pass d => exact Nat.le_add_right ..
      | _ => exact Nat.le_refl _
    obtain ⟨hlater, hsorted⟩ := ih (r.move m)
    exact History.sorted_append hrecent hmove hlater hsorted

end BotFleet.RoutineRun
