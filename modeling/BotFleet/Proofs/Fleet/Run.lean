import BotFleet.Proofs.Seat.Run

/-!
# Runs of a fleet

Sessions side by side, under any order of their steps and of what comes from outside. No session
sees another one.

* `Fleet.Move`, `Fleet.move`, `Fleet.run`: what may happen to a fleet, in any order and at any time;
* `Fleet.Move.on`, `Fleet.Move.newcomers`: what that is for a session, and who joins;
* **`Fleet.seats_move`**: every session makes its own moves, and those who join come last;
* `Fleet.forall_seats_run`: what every move of a session keeps holds for all sessions.
-/

namespace BotFleet

namespace Fleet

/-- What may happen to a fleet: a session is started, something happens to one session, time passes
for all of them, or the fleet writes a log line. -/
inductive Move where
  | launch (settings : SessionSettings) (pace : Option Pace) (script : Script)
  | act (i : Nat) (draw : Draw) (task : Session.Task)
  | stop (i : Nat)
  | change (i : Nat) (responses : Client.Responses)
  | ask (i : Nat)
  | pass (ms : Nat)
  | log (level : Level) (message : String)

def move (f : Fleet) : Move → Fleet
  | .launch settings pace script => f.launch (.start settings pace script)
  | .act i draw task => f.step draw i task
  | .stop i => f.requestStop i
  | .change i responses => f.modifySession i (·.change responses)
  | .ask i => (f.pollLogin i).1
  | .pass ms => f.pass ms
  | .log level message => f.log level message

/-- Any number of moves in any order. -/
def run (f : Fleet) (ms : List Move) : Fleet := ms.foldl move f

@[simp] theorem run_nil (f : Fleet) : f.run [] = f := rfl

@[simp] theorem run_cons (f : Fleet) (m : Move) (ms : List Move) :
    f.run (m :: ms) = (f.move m).run ms := rfl

theorem run_append (f : Fleet) (ms ms' : List Move) : f.run (ms ++ ms') = (f.run ms).run ms' :=
  List.foldl_append

theorem run_induction {P : Fleet → Prop} {f : Fleet} (h : P f)
    (hmove : ∀ f m, P f → P (f.move m)) (ms : List Move) : P (f.run ms) :=
  List.foldlRecOn ms move h fun f h m _ => hmove f m h

/-! ## The sessions of a run -/

/-- The move of one session in a move that is about one session. -/
def Move.target? : Move → Option (Nat × Seat.Move)
  | .act i draw task => some (i, .act draw task)
  | .stop i => some (i, .stop)
  | .change i responses => some (i, .change responses)
  | .ask i => some (i, .ask)
  | _ => none

/-- What happens to a session. -/
def Move.on (m : Move) (i : Nat) : List Seat.Move :=
  match m with
  | .pass ms => [.pass ms]
  | m => (m.target?.filter (·.1 = i)).toList.map (·.2)

/-- Who joins. -/
def Move.newcomers (now : Nat) : Move → List Seat
  | .launch settings pace script => [.fresh now settings pace script]
  | _ => []

theorem set_eq_modify {α : Type} {l : List α} {i : Nat} {x : α} (h : l[i]? = some x) (g : α → α) :
    l.set i (g x) = l.modify i g := by
  have : Inhabited α := ⟨x⟩
  rw [List.modify_eq_set, h]
  rfl

theorem seats_target (f : Fleet) {m : Move} {i : Nat} {m' : Seat.Move}
    (h : m.target? = some (i, m')) : (f.move m).seats = f.seats.modify i (·.move m') := by
  have hnone (hs : f.seats[i]? = none) : f.seats = f.seats.modify i (·.move m') :=
    (List.modify_eq_self (List.getElem?_eq_none_iff.mp hs)).symm
  cases m with
  | act j draw task =>
    cases h
    cases hs : f.seats[i]? with
    | none => simp only [move, step, hs]; exact hnone hs
    | some seat => simp only [move, step, hs]; exact set_eq_modify hs (·.move (.act draw task))
  | stop j => cases h; rfl
  | change j responses => cases h; rfl
  | ask j =>
    cases h
    cases hs : f.seats[i]? with
    | none => simp only [move, pollLogin, hs]; exact hnone hs
    | some seat => simp only [move, pollLogin, hs]; exact set_eq_modify hs (·.move .ask)
  | _ => cases h

/-- **Every session makes its own moves, and those who join come last.** -/
theorem seats_move (f : Fleet) (m : Move) :
    (f.move m).seats =
      f.seats.mapIdx (fun i seat => seat.run (m.on i)) ++ m.newcomers f.now := by
  have hsame (seats : List Seat) : seats = seats.mapIdx (fun _ seat => seat.run []) :=
    (List.mapIdx_eq_iff.mpr fun i => Option.map_id'.symm).symm
  cases htarget : m.target? with
  | some x =>
    obtain ⟨i, m'⟩ := x
    have hnew : m.newcomers f.now = [] := by cases m <;> first | rfl | cases htarget
    have hon (k : Nat) : m.on k = if i = k then [m'] else [] := by
      cases m <;> cases htarget <;> by_cases hk : i = k <;> simp [Move.on, Move.target?, hk]
    rw [seats_target f htarget, hnew, List.append_nil]
    refine List.ext_getElem? fun k => ?_
    rw [List.getElem?_modify, List.getElem?_mapIdx, hon]
    by_cases hk : i = k <;> simp [hk]
  | none =>
    cases m with
    | launch settings pace script => exact congrArg (· ++ _) (hsame f.seats)
    | pass ms =>
      refine Eq.trans (List.mapIdx_eq_iff.mpr fun i => ?_).symm (List.append_nil _).symm
      exact List.getElem?_map ..
    | log level message => exact (hsame f.seats).trans (List.append_nil _).symm
    | _ => cases htarget

/-- **What every move of a session keeps holds for all sessions.** -/
theorem forall_seats_run {P : Seat → Prop}
    (hfresh : ∀ start settings pace script, P (.fresh start settings pace script))
    (hmove : ∀ seat m, P seat → P (seat.move m)) {f : Fleet} (h : ∀ seat ∈ f.seats, P seat)
    (ms : List Move) : ∀ seat ∈ (f.run ms).seats, P seat := by
  refine run_induction (P := fun f => ∀ seat ∈ f.seats, P seat) h (fun f m h seat hseat => ?_) ms
  rw [seats_move, List.mem_append, List.mem_mapIdx] at hseat
  rcases hseat with ⟨i, hi, rfl⟩ | hnew
  · exact Seat.run_induction (h _ (List.getElem_mem hi)) hmove _
  · cases m with
    | launch settings pace script =>
      rw [List.mem_singleton.mp hnew]
      exact hfresh ..
    | _ => cases hnew

end Fleet

end BotFleet
