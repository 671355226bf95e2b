import BotFleet.Proofs.Routine.Turn
import BotFleet.Proofs.Seat.Cancel
import BotFleet.Proofs.Session.Deadline

/-!
# Runs in time

Time passes only when nothing can be done, and not beyond what is due next.

* `Session.MayPass`, `Seat.Timely`: runs of a session in time;
* `Mark`, `Seat.history`: what happens to a session in a run, and when;
* `History.spawnedAt`, `History.endedAt`, `History.turns`: the instant of the first spawn, that of
  the end of all deeds, and the turns of the routine;
* `Seat.sorted_history`: what happens is in a history in the order of time;
* **`Seat.timedDeeds_run`**, **`Seat.lawful_history`**: a session does no deeds but those of its
  turns, and they are lawful.
-/

namespace BotFleet

namespace Session

theorem atRest_iff {s : Session} : s.AtRest ↔ s.firstReady = none := by
  refine ⟨fun h => ?_, atRest_of_firstReady⟩
  cases hf : s.firstReady with
  | none => rfl
  | some task => cases (h task).symm.trans (ready_of_firstReady hf)

instance (s : Session) : Decidable s.AtRest := decidable_of_iff _ atRest_iff.symm

/-- Time may pass: there is nothing to do, and nothing becomes due before. -/
def MayPass (s : Session) (d : Nat) : Prop := s.AtRest ∧ ∀ w ∈ s.wait?, d ≤ w

instance (s : Session) (d : Nat) : Decidable (s.MayPass d) := by unfold MayPass; infer_instance

theorem MayPass.le_of_expects {s : Session} {d due : Nat} (h : s.MayPass d) (he : s.Expects due)
    (hlt : s.clock < due) : s.clock + d ≤ due := by
  obtain ⟨w, hw, hle⟩ := exists_wait_le he hlt
  have := h.2 w hw
  omega

theorem exists_wait_le_of_due {s : Session} {r : Routine} (hr : s.routine = some r) {due : Nat}
    (hdue : due ∈ r.moving.due?.toList ++ r.chatting.due?.toList ++ r.releases) :
    ∃ w, s.wait? = some w ∧ w ≤ due - s.clock := by
  obtain ⟨w, hw, hle⟩ := exists_min?_le (List.mem_map_of_mem (f := (· - s.clock)) hdue)
  obtain ⟨w', hw', hle'⟩ : ∃ w', s.wait? = some w' ∧ w' ≤ w := by
    rw [wait?, hr]
    exact exists_min?_le (List.mem_append_right _ (Option.mem_toList.mpr hw))
  exact ⟨w', hw', Nat.le_trans hle' hle⟩

theorem MayPass.le_of_due {s : Session} {d due : Nat} (h : s.MayPass d) {r : Routine}
    (hr : s.routine = some r)
    (hdue : due ∈ r.moving.due?.toList ++ r.chatting.due?.toList ++ r.releases)
    (hle : s.clock ≤ due) : s.clock + d ≤ due := by
  obtain ⟨w, hw, hwle⟩ := exists_wait_le_of_due hr hdue
  have := h.2 w hw
  omega

end Session

/-! ## Histories -/

/-- What happens to a session: it is asked to stop, it sees something, or its routine has a turn. -/
inductive Mark where
  | stop
  | sight (o : Occurrence)
  | turn (u : Turn)
deriving DecidableEq

namespace Mark

/-- From such a moment on the session does no deeds any more. -/
def isEnd : Mark → Bool
  | .stop => true
  | .sight o => o.isFinal
  | .turn _ => false

def turn? : Mark → Option Turn
  | .turn u => some u
  | _ => none

def sight? : Mark → Option Occurrence
  | .sight o => some o
  | _ => none

end Mark

/-- What has happened to a session, with the instants of its own clock, the oldest first. -/
abbrev History : Type := List (Nat × Mark)

namespace History

/-- When the session saw a spawn for the first time. -/
def spawnedAt (h : History) : Option Nat :=
  (h.find? (·.2 = .sight (.report (.event .spawn)))).map Prod.fst

/-- When the session was asked to stop for the first time, or saw something final. -/
def endedAt (h : History) : Option Nat := (h.find? (·.2.isEnd)).map Prod.fst

/-- What the session has seen, and when. -/
def sightings (h : History) : List (Nat × Occurrence) :=
  h.filterMap fun x => x.2.sight?.map (x.1, ·)

/-- The turns of the session's routine, and when they took place. -/
def turns (h : History) : List (Nat × Turn) := h.filterMap fun x => x.2.turn?.map (x.1, ·)

/-- The turns of one kind. -/
def turnsOf (h : History) (k : Turn.Kind) : List (Nat × Turn) := h.turns.filter (·.2.kind = k)

theorem spawnedAt_append (h h' : History) :
    (h ++ h').spawnedAt = h.spawnedAt.or h'.spawnedAt := by
  rw [spawnedAt, List.find?_append, Option.map_or]
  rfl

theorem endedAt_append (h h' : History) : (h ++ h').endedAt = h.endedAt.or h'.endedAt := by
  rw [endedAt, List.find?_append, Option.map_or]
  rfl

theorem sightings_append (h h' : History) : (h ++ h').sightings = h.sightings ++ h'.sightings :=
  List.filterMap_append

theorem turns_append (h h' : History) : (h ++ h').turns = h.turns ++ h'.turns :=
  List.filterMap_append

theorem turnsOf_append (h h' : History) (k : Turn.Kind) :
    (h ++ h').turnsOf k = h.turnsOf k ++ h'.turnsOf k := by
  rw [turnsOf, turns_append, List.filter_append]
  rfl

theorem sorted_append {h h' : History} {now now' : Nat} (hnow : ∀ x ∈ h, x.1 = now)
    (hle : now ≤ now') (hlater : ∀ x ∈ h', now' ≤ x.1)
    (hsorted : h'.Pairwise fun x y => x.1 ≤ y.1) :
    (∀ x ∈ h ++ h', now ≤ x.1) ∧ (h ++ h').Pairwise fun x y => x.1 ≤ y.1 := by
  refine ⟨fun x hx => ?_, List.pairwise_append.mpr ⟨?_, hsorted, fun x hx y hy => ?_⟩⟩
  · rcases List.mem_append.mp hx with hx | hx
    · exact Nat.le_of_eq (hnow x hx).symm
    · exact Nat.le_trans hle (hlater x hx)
  · refine List.pairwise_of_forall_mem_list fun x hx y hy => ?_
    exact Nat.le_of_eq ((hnow x hx).trans (hnow y hy).symm)
  · rw [hnow x hx]
    exact Nat.le_trans hle (hlater y hy)

end History

namespace Seat

/-- What happens to the session in a move. -/
def marks (seat : Seat) : Move → List Mark
  | .stop => [.stop]
  | .act _ .work => seat.session.sight?.toList.map .sight
  | .act draw (.routine task) =>
    if seat.session.ready (.routine task) ∧ seat.session.situation.cancelled = false then
      [.turn ⟨task.kind, seat.session.responses, (seat.session.step draw (.routine task)).2⟩]
    else []
  | _ => []

/-- What happens to the session in a move, and when. -/
def recent (seat : Seat) (m : Move) : History := (seat.marks m).map (seat.session.clock, ·)

/-- What happens to the session during a run, and when. -/
def history : Seat → List Move → History
  | _, [] => []
  | seat, m :: ms => seat.recent m ++ history (seat.move m) ms

/-- Time passes only when it may. Everything else may happen at any time. -/
def Allows (seat : Seat) : Move → Prop
  | .pass d => seat.session.MayPass d
  | _ => True

/-- A run in time. -/
def Timely : Seat → List Move → Prop
  | _, [] => True
  | seat, m :: ms => seat.Allows m ∧ Timely (seat.move m) ms

instance (seat : Seat) (m : Move) : Decidable (seat.Allows m) := by
  unfold Allows
  split <;> infer_instance

instance decidableTimely : ∀ (seat : Seat) (ms : List Move), Decidable (seat.Timely ms)
  | _, [] => .isTrue trivial
  | seat, m :: ms => @instDecidableAnd _ _ _ (decidableTimely (seat.move m) ms)

theorem timely_append (seat : Seat) (ms ms' : List Move) :
    seat.Timely (ms ++ ms') ↔ seat.Timely ms ∧ (seat.run ms).Timely ms' := by
  induction ms generalizing seat with
  | nil => exact (iff_of_eq (true_and _)).symm
  | cons m ms ih => rw [List.cons_append, Timely, Timely, ih, and_assoc]; rfl

theorem sightings_recent (seat : Seat) (m : Move) :
    (seat.recent m).sightings = (seat.sees m).map (seat.session.clock, ·) := by
  cases m with
  | act draw task =>
    cases task with
    | work =>
      cases hs : seat.session.sight? <;>
        simp [recent, marks, sees, hs, History.sightings, Mark.sight?]
    | report => rfl
    | routine task =>
      rw [recent, marks]
      split <;> rfl
  | _ => rfl

theorem unstopped_history (seat : Seat) {ms : List Move} (h : .stop ∉ ms) :
    ∀ x ∈ seat.history ms, x.2 ≠ .stop := by
  induction ms generalizing seat with
  | nil => simp [history]
  | cons m ms ih =>
    rw [List.mem_cons, not_or] at h
    intro x hx
    rcases List.mem_append.mp hx with hx | hx
    · obtain ⟨mark, hmark, rfl⟩ := List.mem_map.mp hx
      rintro rfl
      cases m with
      | act draw task =>
        cases task with
        | work => simp [marks] at hmark
        | report => cases hmark
        | routine task =>
          rw [marks] at hmark
          split at hmark <;> simp at hmark
      | stop => exact h.1 rfl
      | _ => cases hmark
    · exact ih _ h.2 x hx

theorem clock_move {seat : Seat} (h : seat.session.Coherent) {m : Move} (hm : ∀ d, m ≠ .pass d) :
    (seat.move m).session.clock = seat.session.clock := by
  cases m with
  | act draw task => exact (Session.frame_step h draw task).clock
  | change responses =>
    rw [move, Session.change]
    split <;> rfl
  | pass d => exact absurd rfl (hm d)
  | _ => rfl

theorem clock_le_move {seat : Seat} (h : seat.session.Coherent) (m : Move) :
    seat.session.clock ≤ (seat.move m).session.clock := by
  cases m with
  | pass d => exact Nat.le_add_right ..
  | _ => exact Nat.le_of_eq (clock_move h (by simp)).symm

theorem sorted_history {seat : Seat} (h : seat.session.Coherent) (ms : List Move) :
    (∀ x ∈ seat.history ms, seat.session.clock ≤ x.1) ∧
      (seat.history ms).Pairwise fun x y => x.1 ≤ y.1 := by
  induction ms generalizing seat with
  | nil => exact ⟨by simp [history], .nil⟩
  | cons m ms ih =>
    have hrecent : ∀ x ∈ seat.recent m, x.1 = seat.session.clock := by
      intro x hx
      obtain ⟨mark, -, rfl⟩ := List.mem_map.mp hx
      rfl
    obtain ⟨hlater, hsorted⟩ := ih (coherent_move seat m h)
    exact History.sorted_append hrecent (clock_le_move h m) hlater hsorted

/-- What every move in time keeps holds after every run in time, together with its history. -/
theorem timely_induction {P : Seat → History → Prop} {seat : Seat} {h : History} (hp : P seat h)
    {ms : List Move} (htimely : seat.Timely ms)
    (hmove : ∀ seat h m, m ∈ ms → seat.Allows m → P seat h → P (seat.move m) (h ++ seat.recent m)) :
    P (seat.run ms) (h ++ seat.history ms) := by
  induction ms generalizing seat h with
  | nil => rwa [history, List.append_nil]
  | cons m ms ih =>
    rw [history, ← List.append_assoc]
    exact ih (hmove seat h m List.mem_cons_self htimely.1 hp) htimely.2
      fun seat h m' hm' => hmove seat h m' (List.mem_cons_of_mem m hm')

/-! ## The deeds of a run -/

/-- The calls that the session has made on its client, and the counting of them, with their
instants. -/
def timedDeeds (seat : Seat) : List (Nat × Effect) := seat.journal.toList.filter (·.2.isDeed)

theorem toList_move {seat : Seat} (h : seat.session.Coherent) (m : Move) :
    (seat.move m).journal.toList =
      seat.journal.toList ++ (seat.does m).map (seat.session.clock, ·) := by
  cases m with
  | act draw task =>
    have hclock := (Session.frame_step h draw task).clock
    rw [move, advance, Journal.toList_note, hclock]
    rfl
  | _ => exact (List.append_nil _).symm

/-- What happens in a move explains the deeds in it: they are those of its turns, which are lawful. -/
structure Explained (seat : Seat) (m : Move) : Prop where
  lawful : ∀ x ∈ (seat.recent m).turns, x.2.Lawful
  deeds : ((seat.does m).filter Effect.isDeed).map (seat.session.clock, ·) =
    (seat.recent m).turns.flatMap fun x => x.2.deeds.map (x.1, ·)

theorem explained_of_idle {seat : Seat} {m : Move} (h : (seat.recent m).turns = [])
    (hdoes : (seat.does m).filter Effect.isDeed = []) : seat.Explained m :=
  ⟨by simp [h], by rw [h, hdoes]; rfl⟩

theorem explained_routine (seat : Seat) (draw : Draw) (task : Routine.Task) :
    seat.Explained (.act draw (.routine task)) := by
  rcases Session.step_routine seat.session draw task with ⟨hr, hs⟩ | ⟨r, hr, hready, hs⟩
  · exact explained_of_idle (by simp [recent, marks, hr, History.turns]) (by simp [does, hs])
  · have hany : seat.session.ready (.routine task) = true := by
      rw [Session.ready, hr]
      exact hready
    cases hc : seat.session.situation.cancelled with
    | true =>
      refine explained_of_idle (by simp [recent, marks, hc, History.turns]) ?_
      rw [does, hs]
      exact Effect.filter_isDeed_of_isLog ((Routine.stepped hready draw).cancelled hc)
    | false =>
      have hlawful : Turn.Lawful ⟨task.kind, seat.session.responses, _⟩ :=
        Routine.lawful_step hready hc draw
      constructor <;>
        simp [does, recent, marks, hs, hany, hc, hlawful, History.turns, Mark.turn?, Turn.deeds]

theorem explained {seat : Seat} (h : seat.session.Coherent) (m : Move) : seat.Explained m := by
  cases m with
  | act draw task =>
    cases task with
    | work =>
      refine explained_of_idle ?_ (Session.step_work h draw).no_deeds
      cases hs : seat.session.sight? <;> simp [recent, marks, hs, History.turns, Mark.turn?]
    | report => exact explained_of_idle rfl (by rw [does, Session.effects_report]; rfl)
    | routine task => exact seat.explained_routine draw task
  | _ => exact explained_of_idle rfl rfl

/-- **A session does no deeds but those of its turns**, at their instants and in their order. -/
theorem timedDeeds_run {seat : Seat} (h : seat.session.Coherent) (ms : List Move) :
    (seat.run ms).timedDeeds =
      seat.timedDeeds ++ (seat.history ms).turns.flatMap fun x => x.2.deeds.map (x.1, ·) := by
  induction ms generalizing seat with
  | nil => exact (List.append_nil _).symm
  | cons m ms ih =>
    have hmove : (seat.move m).timedDeeds = seat.timedDeeds ++
        (seat.recent m).turns.flatMap fun x => x.2.deeds.map (x.1, ·) := by
      rw [timedDeeds, toList_move h, List.filter_append, List.filter_map]
      exact congrArg _ (explained h m).deeds
    rw [run_cons, ih (coherent_move seat m h), hmove, history, History.turns_append,
      List.flatMap_append, List.append_assoc]

/-- **The turns of a session are lawful.** -/
theorem lawful_history {seat : Seat} (h : seat.session.Coherent) (ms : List Move) :
    ∀ x ∈ (seat.history ms).turns, x.2.Lawful := by
  induction ms generalizing seat with
  | nil => simp [history, History.turns]
  | cons m ms ih =>
    intro x hx
    rw [history, History.turns_append] at hx
    rcases List.mem_append.mp hx with hx | hx
    · exact (explained h m).lawful x hx
    · exact ih (coherent_move seat m h) x hx

theorem deeds_eq_map (seat : Seat) : seat.deeds = seat.timedDeeds.map Prod.snd := by
  rw [deeds, effects, List.filter_map]
  rfl

/-- **A session counts what its turns count.** -/
theorem times_run (start : Nat) (settings : SessionSettings) (pace : Option Pace) (script : Script)
    (ms : List Move) {c : Counter} (hdeed : (Effect.count c).isDeed = true) :
    ((fresh start settings pace script).run ms).times (.count c) =
      ((fresh start settings pace script).history ms).turns.countP (·.2.counts c) := by
  have hc := coherent_fresh start settings pace script
  have hlawful := lawful_history hc ms
  rw [times_eq_count_deeds _ hdeed, deeds_eq_map, timedDeeds_run hc]
  generalize ((fresh start settings pace script).history ms).turns = turns at hlawful ⊢
  show (List.map Prod.snd (turns.flatMap _)).count (Effect.count c) = _
  induction turns with
  | nil => rfl
  | cons x turns ih =>
    obtain ⟨hx, hturns⟩ := List.forall_mem_cons.mp hlawful
    have hone : ((x.2.deeds.map (x.1, ·)).map Prod.snd).count (.count c) = (x.2.counts c).toNat := by
      rw [List.map_map]
      exact (congrArg (List.count _) (List.map_id _)).trans (hx.count c)
    rw [List.flatMap_cons, List.map_append, List.count_append, hone, ih hturns, List.countP_cons]
    cases x.2.counts c <;> simp [Nat.add_comm]

end Seat

end BotFleet
