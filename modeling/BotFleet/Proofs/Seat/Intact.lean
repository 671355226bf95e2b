import BotFleet.Proofs.Fleet.Run

/-!
# Sessions in which nothing crashes

A client that brings no caller down leaves a session intact: connecting does not crash, the tickers of
its routine start, and they go on.

* `Script.Calm`, `Pace.Sound`: such a client, and a pace whose tickers can start;
* `Routine.Intact`, `Session.Intact`: no activity has crashed, and neither has connecting;
* **`Routine.Intact.step`**, **`Session.Worked.intact`**: a step keeps it so, while the clock leaves
  room for one period;
* `Seat.Spared`: a session that is intact as long as its clock leaves that room;
* **`Fleet.Spared.run`**: all sessions of a fleet are, whatever happens.
-/

namespace BotFleet

/-! ## Clients and paces -/

/-- A client none of whose responses brings its caller down. -/
structure Client.Responses.Calm (r : Client.Responses) : Prop where
  sight : r.sight ≠ .crash
  look : r.look ≠ .crash
  engage : r.engage ≠ .crash
  release : r.release ≠ .crash
  chat : r.chat ≠ .crash

/-- A client that does not crash when it connects, nor later. -/
structure Script.Calm (s : Script) : Prop where
  opening : ∀ delay message, s.opening ≠ some (delay, .crashed message)
  responses : s.responses.Calm

/-- A pace whose intervals are not zero and fit a word. -/
structure Pace.Sound (p : Pace) : Prop where
  move : 0 < p.moveInterval
  moveWord : p.moveInterval < UInt64.size
  chat : 0 < p.chatInterval
  chatWord : p.chatInterval < UInt64.size

/-! ## Routines -/

/-- A routine in which no activity has crashed. -/
structure Routine.Intact (r : Routine) : Prop where
  moving : r.moving ≠ .crashed
  chatting : r.chatting ≠ .crashed

/-- There is room for the first tick of a period that fits a word. -/
theorem Activity.start_ne_crashed {now period : Nat} (hpos : 0 < period)
    (hword : period < UInt64.size) (hroom : now + UInt64.size ≤ Clock.last) :
    Activity.start now period ≠ .crashed := by
  have hfirst : now + period ≤ Clock.last := by omega
  rw [start, Ticker.start?, dif_pos ⟨hpos, hfirst⟩]
  exact nofun

namespace Routine

/-- **Both tickers of a routine start.** -/
theorem intact_attach {p : Pace} (h : p.Sound) {now : Nat}
    (hroom : now + UInt64.size ≤ Clock.last) : (attach p now).Intact :=
  ⟨Activity.start_ne_crashed h.move h.moveWord hroom,
    Activity.start_ne_crashed h.chat h.chatWord hroom⟩

variable {r : Routine} {c : Situation}

theorem Intact.moveTick (h : r.Intact) (hcalm : c.responses.Calm) (draw : Draw) :
    (r.moveTick c draw).1.Intact := by
  unfold Routine.moveTick
  cases hsight : c.responses.sight with
  | crash => exact absurd hsight hcalm.sight
  | unknown => exact h
  | «at» p =>
    cases hlook : c.responses.look with
    | crash => exact absurd hlook hcalm.look
    | refused f => exact h
    | done =>
      cases hengage : c.responses.engage with
      | crash => exact absurd hengage hcalm.engage
      | refused f => exact h
      | done => exact ⟨h.moving, h.chatting⟩

theorem Intact.chatTick (h : r.Intact) (hcalm : c.responses.Calm) (draw : Draw) :
    (r.chatTick c draw).1.Intact := by
  unfold Routine.chatTick
  cases hchat : c.responses.chat with
  | crash => exact absurd hchat hcalm.chat
  | refused f => exact h
  | done => exact h

/-- **A step keeps a routine intact.** -/
theorem Intact.step (h : r.Intact) (hcalm : c.responses.Calm) (draw : Draw) (task : Task) :
    (r.step c draw task).1.Intact := by
  cases task with
  | move =>
    cases hm : r.moving with
    | running t =>
      rw [Routine.step, hm]
      dsimp only
      split
      · exact ⟨by simp, h.chatting⟩
      · split
        · have hrunning : Intact { r with moving := .running (t.advance c.now) } :=
            ⟨by simp, h.chatting⟩
          exact hrunning.moveTick hcalm draw
        · exact h
    | _ => simpa only [Routine.step, hm] using h
  | chat =>
    cases hm : r.chatting with
    | running t =>
      rw [Routine.step, hm]
      dsimp only
      split
      · exact ⟨h.moving, by simp⟩
      · split
        · have hrunning : Intact { r with chatting := .running (t.advance c.now) } :=
            ⟨h.moving, by simp⟩
          exact hrunning.chatTick hcalm draw
        · exact h
    | _ => simpa only [Routine.step, hm] using h
  | release i =>
    cases hi : r.releases[i]? with
    | none => simpa only [Routine.step, hi] using h
    | some due =>
      rw [Routine.step, hi]
      dsimp only
      split
      · exact ⟨h.moving, h.chatting⟩
      · split
        · exact ⟨h.moving, h.chatting⟩
        · exact h

end Routine

/-! ## Sessions -/

namespace Session

/-- A session in which nothing has crashed, and whose client will bring nothing down. -/
structure Intact (s : Session) : Prop where
  script : s.script.Calm
  pace : ∀ p ∈ s.pace, p.Sound
  responses : s.responses.Calm
  phase : ∀ message, s.phase ≠ .crashed message
  routine : ∀ r ∈ s.routine, r.Intact

variable {s : Session}

theorem intact_start (settings : SessionSettings) {pace : Option Pace} {script : Script}
    (hpace : ∀ p ∈ pace, p.Sound) (hcalm : script.Calm) : (start settings pace script).Intact :=
  ⟨hcalm, hpace, hcalm.responses, nofun, nofun⟩

/-- **A step of the work keeps a session intact**, while its clock leaves room for one period. -/
theorem Worked.intact {s' : Session} {o? : Option Occurrence} {es : List Effect}
    (hw : Worked s o? s' es) (h : s.Intact) (hroom : s.clock + UInt64.size ≤ Clock.last) :
    s'.Intact := by
  cases hw with
  | idle => exact h
  | begun | stoppedEarly | stopped | refused | opened | ended =>
    exact ⟨h.script, h.pace, h.responses, nofun, h.routine⟩
  | noted | loggedIn => exact ⟨h.script, h.pace, h.responses, h.phase, h.routine⟩
  | crashed _ _ _ _ _ hopening => exact absurd hopening (h.script.opening _ _)
  | spawned =>
    refine ⟨h.script, h.pace, h.responses, h.phase, fun r hr => ?_⟩
    cases hpace : s.pace with
    | none =>
      simp only [Session.spawned, hpace, Option.map_none, Option.none_or] at hr
      exact h.routine r hr
    | some p =>
      simp only [Session.spawned, hpace, Option.map_some, Option.some_or, Option.mem_some] at hr
      exact hr ▸ Routine.intact_attach (h.pace p hpace) hroom

theorem Intact.step (h : s.Intact) (hc : s.Coherent) (hroom : s.clock + UInt64.size ≤ Clock.last)
    (draw : Draw) (task : Task) : (s.step draw task).1.Intact := by
  cases task with
  | work => exact (step_work hc draw).intact h hroom
  | report =>
    rcases step_report s draw with ⟨-, hs⟩ | ⟨_, _, _, -, -, -, hs⟩ <;> rw [hs]
    · exact h
    · exact ⟨h.script, h.pace, h.responses, h.phase, h.routine⟩
  | routine task =>
    rcases step_routine s draw task with ⟨-, hs⟩ | ⟨r, hr, -, hs⟩ <;> rw [hs]
    · exact h
    · refine ⟨h.script, h.pace, h.responses, h.phase, fun r' hr' => ?_⟩
      obtain rfl := Option.some.inj hr'
      exact (h.routine r hr).step h.responses draw task

end Session

namespace Seat

/-- The client is still calm after a move. -/
def Move.Calm : Move → Prop
  | .change responses => responses.Calm
  | _ => True

/-- A session that is intact as long as its clock leaves room for one period. -/
structure Spared (seat : Seat) : Prop where
  coherent : seat.session.Coherent
  intact : seat.session.clock + UInt64.size ≤ Clock.last → seat.session.Intact

variable {seat : Seat}

theorem spared_fresh (start : Nat) (settings : SessionSettings) {pace : Option Pace}
    {script : Script} (hpace : ∀ p ∈ pace, p.Sound) (hcalm : script.Calm) :
    (fresh start settings pace script).Spared :=
  ⟨coherent_fresh .., fun _ => Session.intact_start settings hpace hcalm⟩

/-- **A move spares a session.** -/
theorem Spared.move (h : seat.Spared) {m : Move} (hm : m.Calm) : (seat.move m).Spared := by
  refine ⟨coherent_move seat m h.coherent, fun hroom => ?_⟩
  cases m with
  | act draw task =>
    have hclock := (Session.frame_step h.coherent draw task).clock
    have hroom : seat.session.clock + UInt64.size ≤ Clock.last := hclock ▸ hroom
    exact (h.intact hroom).step h.coherent hroom draw task
  | stop =>
    have hi := h.intact hroom
    exact ⟨hi.script, hi.pace, hi.responses, hi.phase, hi.routine⟩
  | change responses =>
    have hclock : (seat.session.change responses).clock = seat.session.clock := by
      rw [Session.change]
      split <;> rfl
    have hi := h.intact (hclock ▸ hroom)
    rw [Seat.move, Session.change]
    split
    · exact ⟨hi.script, hi.pace, hm, hi.phase, hi.routine⟩
    · exact hi
  | ask =>
    have hi := h.intact hroom
    exact ⟨hi.script, hi.pace, hi.responses, hi.phase, hi.routine⟩
  | pass ms =>
    have hlater : seat.session.clock + ms + UInt64.size ≤ Clock.last := hroom
    have hi := h.intact (by omega)
    exact ⟨hi.script, hi.pace, hi.responses, hi.phase, hi.routine⟩

theorem Spared.run (h : seat.Spared) {ms : List Move} (hms : ∀ m ∈ ms, m.Calm) :
    (seat.run ms).Spared := by
  induction ms generalizing seat with
  | nil => exact h
  | cons m ms ih =>
    obtain ⟨hm, hms⟩ := List.forall_mem_cons.mp hms
    exact ih (h.move hm) hms

end Seat

namespace Fleet

/-- The clients are still calm after a move, and so is that of a newcomer. -/
def Move.Calm : Move → Prop
  | .launch _ pace script => (∀ p ∈ pace, p.Sound) ∧ script.Calm
  | .change _ responses => responses.Calm
  | _ => True

theorem Move.Calm.on {m : Move} (h : m.Calm) {i : Nat} {m' : Seat.Move} (hm' : m' ∈ m.on i) :
    m'.Calm := by
  cases m with
  | launch | log => cases hm'
  | pass ms =>
    rw [List.mem_singleton.mp hm']
    trivial
  | act j draw task | stop j | ask j | change j responses =>
    by_cases hj : j = i <;> simp only [Move.on, target?, Option.filter_some, hj, decide_true,
      decide_false, if_true, Option.toList_some, List.map_singleton, List.mem_singleton] at hm'
    · rw [hm']
      exact h
    · cases hm'

/-- All sessions of a fleet are spared. -/
def Spared (f : Fleet) : Prop := ∀ seat ∈ f.seats, seat.Spared

theorem Spared.move {f : Fleet} (h : f.Spared) {m : Move} (hm : m.Calm) : (f.move m).Spared := by
  intro seat hseat
  rw [seats_move, List.mem_append, List.mem_mapIdx] at hseat
  rcases hseat with ⟨i, hi, rfl⟩ | hnew
  · exact (h _ (List.getElem_mem hi)).run fun m' hm' => hm.on hm'
  · cases m with
    | launch settings pace script =>
      rw [List.mem_singleton.mp hnew]
      exact Seat.spared_fresh _ settings hm.1 hm.2
    | _ => cases hnew

/-- **Whatever happens spares the sessions of a fleet.** -/
theorem Spared.run {f : Fleet} (h : f.Spared) {ms : List Move} (hms : ∀ m ∈ ms, m.Calm) :
    (f.run ms).Spared := by
  induction ms generalizing f with
  | nil => exact h
  | cons m ms ih =>
    obtain ⟨hm, hms⟩ := List.forall_mem_cons.mp hms
    exact ih (h.move hm) hms

end Fleet

end BotFleet
