import BotFleet.Fleet.Basic
import BotFleet.Proofs.Session.Work

/-!
# Runs of one session

A session and its owner's handle, under any order of steps and of what comes from outside.

* `Seat.fresh`: a session that has not done anything;
* `Seat.Move`, `Seat.move`, `Seat.run`: what may happen to it, in any order and at any time;
* `Seat.seen`: what the session sees during a run, in the order in which it sees it;
* `Seat.run_induction`: what every move keeps holds after every run;
* `Seat.coherent_run`, `Seat.stopping_run`: the session stays coherent, and knows whether it was
  asked to stop.
-/

namespace BotFleet

namespace Seat

/-- A session that has not done anything, and its owner's handle. -/
def fresh (start : Nat) (settings : SessionSettings) (pace : Option Pace) (script : Script) :
    Seat :=
  { start, session := .start settings pace script }

/-- What may happen to a session and its owner's handle: the session does something, it is asked to
stop, its client responds differently from now on, its owner asks for the login, or time passes. -/
inductive Move where
  | act (draw : Draw) (task : Session.Task)
  | stop
  | change (responses : Client.Responses)
  | ask
  | pass (ms : Nat)
deriving DecidableEq

/-- Ask for the login without waiting. -/
def poll (seat : Seat) : Seat :=
  { seat with
    handle := (seat.handle.poll seat.session.settlement).1
    session := { seat.session with
      settlement := (seat.handle.poll seat.session.settlement).2.1 } }

/-- What the owner is told when it asks for the login. -/
def answer (seat : Seat) : Option Verdict := seat.handle.answer seat.session.settlement

def move (seat : Seat) : Move → Seat
  | .act draw task => seat.advance (seat.session.step draw task)
  | .stop => { seat with session := seat.session.requestStop }
  | .change responses => { seat with session := seat.session.change responses }
  | .ask => seat.poll
  | .pass ms => { seat with session := seat.session.pass ms }

/-- Any number of moves in any order. -/
def run (seat : Seat) (ms : List Move) : Seat := ms.foldl move seat

/-- What the session sees in a move. -/
def sees (seat : Seat) : Move → List Occurrence
  | .act _ .work => seat.session.sight?.toList
  | _ => []

/-- What the session sees during a run. -/
def seen : Seat → List Move → List Occurrence
  | _, [] => []
  | seat, m :: ms => seat.sees m ++ seen (seat.move m) ms

@[simp] theorem run_nil (seat : Seat) : seat.run [] = seat := rfl

@[simp] theorem run_cons (seat : Seat) (m : Move) (ms : List Move) :
    seat.run (m :: ms) = (seat.move m).run ms := rfl

theorem run_append (seat : Seat) (ms ms' : List Move) :
    seat.run (ms ++ ms') = (seat.run ms).run ms' :=
  List.foldl_append

theorem seen_append (seat : Seat) (ms ms' : List Move) :
    seat.seen (ms ++ ms') = seat.seen ms ++ (seat.run ms).seen ms' := by
  induction ms generalizing seat with
  | nil => rfl
  | cons m ms ih => rw [List.cons_append, seen, seen, ih, List.append_assoc]; rfl

theorem run_induction {P : Seat → Prop} {seat : Seat} (h : P seat)
    (hmove : ∀ seat m, P seat → P (seat.move m)) (ms : List Move) : P (seat.run ms) :=
  List.foldlRecOn ms move h fun seat h m _ => hmove seat m h

/-! ## Coherence -/

theorem coherent_fresh (start : Nat) (settings : SessionSettings) (pace : Option Pace)
    (script : Script) : (fresh start settings pace script).session.Coherent :=
  Session.coherent_start settings pace script

theorem alike_move (seat : Seat) {m : Move} (hm : ∀ draw task, m ≠ .act draw task) :
    Session.Alike seat.session (seat.move m).session := by
  cases m with
  | act draw task => exact absurd rfl (hm draw task)
  | stop => exact ⟨rfl, rfl, rfl, rfl, rfl, rfl, rfl⟩
  | change responses =>
    simp only [move, Session.change]
    cases seat.session.wasConnected <;> exact ⟨rfl, rfl, rfl, rfl, rfl, rfl, rfl⟩
  | ask => exact ⟨rfl, rfl, rfl, rfl, LoginHandle.settled_poll .., rfl, rfl⟩
  | pass ms => exact ⟨rfl, rfl, rfl, rfl, rfl, rfl, rfl⟩

/-- Only a step of the work touches the standing of a session. -/
theorem alike_of_not_work (seat : Seat) {m : Move} (hm : ∀ draw, m ≠ .act draw .work) :
    Session.Alike seat.session (seat.move m).session := by
  cases m with
  | act draw task =>
    cases task with
    | work => exact absurd rfl (hm draw)
    | report => exact Session.alike_report draw
    | routine task => exact Session.alike_routine draw task
  | _ => exact seat.alike_move (by simp)

theorem coherent_move (seat : Seat) (m : Move) (h : seat.session.Coherent) :
    (seat.move m).session.Coherent := by
  cases m with
  | act draw task => exact Session.coherent_step h draw task
  | _ => exact (seat.alike_move (by simp)).coherent h

/-- **A session stays coherent, whatever happens.** -/
theorem coherent_run {seat : Seat} (h : seat.session.Coherent) (ms : List Move) :
    (seat.run ms).session.Coherent :=
  run_induction h coherent_move ms

theorem run_same {α : Type} {g : Seat → α}
    (hmove : ∀ seat m, seat.session.Coherent → g (seat.move m) = g seat) {seat : Seat}
    (h : seat.session.Coherent) (ms : List Move) : g (seat.run ms) = g seat := by
  induction ms generalizing seat with
  | nil => rfl
  | cons m ms ih => exact (ih (coherent_move seat m h)).trans (hmove seat m h)

theorem start_move (seat : Seat) (m : Move) : (seat.move m).start = seat.start := by
  cases m <;> rfl

theorem settings_move (seat : Seat) (m : Move) (h : seat.session.Coherent) :
    (seat.move m).session.settings = seat.session.settings := by
  cases m with
  | act draw task => exact (Session.frame_step h draw task).settings
  | change responses =>
    simp only [move, Session.change]
    split <;> rfl
  | _ => rfl

theorem script_move (seat : Seat) (m : Move) (h : seat.session.Coherent) :
    (seat.move m).session.script = seat.session.script := by
  cases m with
  | act draw task => exact (Session.frame_step h draw task).script
  | _ => exact (seat.alike_move (by simp)).script

theorem pace_move (seat : Seat) (m : Move) (h : seat.session.Coherent) :
    (seat.move m).session.pace = seat.session.pace := by
  cases m with
  | act draw task => exact (Session.frame_step h draw task).pace
  | change responses =>
    simp only [move, Session.change]
    split <;> rfl
  | _ => rfl

theorem settings_run {seat : Seat} (h : seat.session.Coherent) (ms : List Move) :
    (seat.run ms).session.settings = seat.session.settings :=
  run_same (g := (·.session.settings)) settings_move h ms

theorem script_run {seat : Seat} (h : seat.session.Coherent) (ms : List Move) :
    (seat.run ms).session.script = seat.session.script :=
  run_same (g := (·.session.script)) script_move h ms

theorem pace_run {seat : Seat} (h : seat.session.Coherent) (ms : List Move) :
    (seat.run ms).session.pace = seat.session.pace :=
  run_same (g := (·.session.pace)) pace_move h ms

theorem stopping_move {seat : Seat} (h : seat.session.Coherent) (m : Move) :
    (seat.move m).session.stopping = true ↔ seat.session.stopping = true ∨ m = .stop := by
  cases m with
  | act draw task => simp [move, advance, (Session.frame_step h draw task).stopping]
  | stop => simp [move, Session.requestStop]
  | change responses =>
    simp only [move, Session.change]
    cases seat.session.wasConnected <;> simp
  | ask => simp [move, poll]
  | pass ms => simp [move, Session.pass]

/-- **A session knows whether it was asked to stop.** -/
theorem stopping_run {seat : Seat} (h : seat.session.Coherent) (ms : List Move) :
    (seat.run ms).session.stopping = true ↔ seat.session.stopping = true ∨ .stop ∈ ms := by
  induction ms generalizing seat with
  | nil => simp
  | cons m ms ih =>
    rw [run_cons, ih (coherent_move seat m h), stopping_move h, List.mem_cons, or_assoc,
      eq_comm (a := m)]

end Seat

end BotFleet
