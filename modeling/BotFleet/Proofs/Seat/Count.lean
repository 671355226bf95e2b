import BotFleet.Proofs.Seat.Run

/-!
# What a session counts

* `Seat.effects`, `Seat.times`: what a session has done, and how often;
* `Session.isStarted`, `Session.isWorking`, `Session.isOpen`, `Session.isPresent`: how it stands;
* `Session.Booked`: some effects agree with what became of a session;
* `Seat.Counted`: all that a session has counted agrees with how it stands;
* **`Seat.Counted.move`**: it does, whatever happens.
-/

namespace BotFleet

namespace Session

/-- The session has started to run. -/
def isStarted (s : Session) : Bool := s.phase ≠ .fresh

/-- The session has started to run and has not finished. -/
def isWorking (s : Session) : Bool := s.isStarted && !s.phase.isOver

/-- The session has started to run and its login is not settled. A session that has crashed while it
was connecting never settles it. -/
def isOpen (s : Session) : Bool := s.isStarted && !s.settlement.settled

/-- The session is logged in and not terminated. -/
def isPresent (s : Session) : Bool := s.published = .loggedIn

theorem isStarted_eq (s : Session) :
    s.isStarted.toNat = s.isWorking.toNat + s.phase.isOver.toNat := by
  unfold isWorking isStarted
  cases s.phase <;> rfl

/-- Some effects agree with what became of a session. -/
structure Booked (s s' : Session) (es : List Effect) : Prop where
  started : s'.isStarted.toNat = s.isStarted.toNat + es.count (.count .started)
  entered : s'.isStarted.toNat = s.isStarted.toNat + es.count .enter
  left : s'.phase.isOver.toNat = s.phase.isOver.toNat + es.count .leave
  settled : s'.settlement.settled.toNat =
    s.settlement.settled.toNat + (es.count (.count .logins) + es.count (.count .failures))
  present : s'.isPresent.toNat + es.count (.count .endedAfterLogin) =
    s.isPresent.toNat + es.count (.count .logins)

theorem Booked.refl (s : Session) : Booked s s [] := ⟨rfl, rfl, rfl, rfl, rfl⟩

theorem Booked.trans {s s' s'' : Session} {es es' : List Effect} (h : Booked s s' es)
    (h' : Booked s' s'' es') : Booked s s'' (es ++ es') where
  started := by rw [h'.started, h.started, List.count_append, Nat.add_assoc]
  entered := by rw [h'.entered, h.entered, List.count_append, Nat.add_assoc]
  left := by rw [h'.left, h.left, List.count_append, Nat.add_assoc]
  settled := by rw [h'.settled, h.settled, List.count_append, List.count_append]; omega
  present := by
    have := h.present
    have := h'.present
    rw [List.count_append, List.count_append]
    omega

/-- Deeds and log lines go with whatever leaves the standing of a session as it is. -/
theorem booked_of_quiet {s s' : Session} {es : List Effect}
    (hes : ∀ e ∈ es, e.isDeed = true ∨ e.isLog = true) (hstarted : s'.isStarted = s.isStarted)
    (hover : s'.phase.isOver = s.phase.isOver)
    (hsettled : s'.settlement.settled = s.settlement.settled)
    (hpresent : s'.isPresent = s.isPresent) : Booked s s' es := by
  have hcount {e : Effect} (hd : e.isDeed = false) (hl : e.isLog = false) : es.count e = 0 := by
    rw [List.count_eq_zero]
    intro he
    rcases hes e he with h | h
    · rw [hd] at h; cases h
    · rw [hl] at h; cases h
  refine ⟨?_, ?_, ?_, ?_, ?_⟩
  · rw [hcount rfl rfl, hstarted]; rfl
  · rw [hcount rfl rfl, hstarted]; rfl
  · rw [hcount rfl rfl, hover]; rfl
  · rw [hcount rfl rfl, hcount rfl rfl, hsettled]; rfl
  · rw [hcount rfl rfl, hcount rfl rfl, hpresent]

theorem Alike.booked {s s' : Session} (a : Alike s s') {es : List Effect}
    (hes : ∀ e ∈ es, e.isDeed = true ∨ e.isLog = true) : Booked s s' es :=
  booked_of_quiet hes (by rw [isStarted, isStarted, a.phase]) (by rw [a.phase]) a.settled
    (by rw [isPresent, isPresent, a.published])

theorem Untouched.booked_fail {s : Session} (h : s.Untouched) (hs : s.isStarted = true)
    (ho : s.phase.isOver = false) (cause : LoginFailure) {line : Effect} (hl : line.isLog = true) :
    Booked s (s.fail cause) [line, .count .failures, .leave] := by
  obtain ⟨_, _, _, rfl⟩ := Effect.exists_of_isLog hl
  have hsettled : (s.fail cause).settlement.settled = true := Settlement.settled_settle ..
  refine ⟨?_, ?_, ?_, ?_, ?_⟩
  · rw [hs]; rfl
  · rw [hs]; rfl
  · rw [ho]; rfl
  · rw [hsettled, h.unsettled]; rfl
  · rw [isPresent, isPresent, h.published]; rfl

theorem booked_start {s s' : Session} (hp : s.phase = .fresh) (hs : s'.isStarted = true)
    (ho : s'.phase.isOver = false) (hpub : s'.published = s.published)
    (hset : s'.settlement = s.settlement) : Booked s s' [.count .started, .enter] := by
  refine ⟨?_, ?_, ?_, ?_, ?_⟩
  · rw [hs, isStarted, hp]; rfl
  · rw [hs, isStarted, hp]; rfl
  · rw [ho, hp]; rfl
  · rw [hset]; rfl
  · rw [isPresent, isPresent, hpub]; rfl

theorem Worked.booked {s s' : Session} {o? : Option Occurrence} {es : List Effect}
    (h : s.Coherent) (hw : Worked s o? s' es) : Booked s s' es := by
  cases hw with
  | idle => exact .refl s
  | begun hp _ =>
    have hstart : Booked s s.begun [.count .started, .enter] := booked_start hp rfl rfl rfl rfl
    have hconnect : Booked s.begun s.begun [.connect] := ⟨rfl, rfl, rfl, rfl, rfl⟩
    exact hstart.trans hconnect
  | stoppedEarly line hp _ hl =>
    have hu := h.fresh hp
    -- the session passes through the state in which it has started and not yet failed
    have hstart : Booked s s.begun [.count .started, .enter] := booked_start hp rfl rfl rfl rfl
    have hb : s.begun.Untouched := ⟨hu.lifecycle, hu.published, hu.unsettled, hu.kept, hu.routine⟩
    exact hstart.trans (hb.booked_fail rfl rfl ⟨.disconnected, "shutdown requested"⟩ hl)
  | stopped due line hp _ hl =>
    exact (h.connecting hp).1.booked_fail (by simp [isStarted, hp]) (by simp [hp, Phase.isOver]) _ hl
  | refused due delay f line hp _ _ hl =>
    exact (h.connecting hp).1.booked_fail (by simp [isStarted, hp]) (by simp [hp, Phase.isOver]) _ hl
  | crashed due delay message hp _ _ =>
    have hset : (s.collapsed message).settlement.settled = s.settlement.settled :=
      Settlement.settled_abandon _
    exact ⟨by simp [isStarted, hp, collapsed], by simp [isStarted, hp, collapsed],
      by simp [hp, collapsed, Phase.isOver], by rw [hset]; rfl, rfl⟩
  | opened due delay line hp _ _ hl =>
    exact booked_of_quiet (by simp [hl]) (by simp [isStarted, hp, Session.opened])
      (by simp [hp, Session.opened, Phase.isOver]) rfl rfl
  | noted e rest line hp _ _ _ _ hl =>
    refine booked_of_quiet (by simp [hl]) rfl rfl rfl ?_
    rw [isPresent, isPresent, (h.running hp).published]; rfl
  | spawned rest lines hp _ _ _ hl =>
    have ha := h.running hp
    have hstage := (stage_spawn ha.stage).2
    refine booked_of_quiet (fun e he => .inr (hl e he)) rfl rfl rfl ?_
    simp only [isPresent, Session.spawned, ha.published, hstage]
  | loggedIn rest line hp _ _ hstage hl =>
    have ha := h.running hp
    have hpresent : s.isPresent = false := by simp [isPresent, ha.published, hstage]
    have hopen : s.settlement.settled = false := by simpa [hstage] using ha.settled
    have hsettled : (s.loggedIn rest).settlement.settled = true := Settlement.settled_settle ..
    obtain ⟨_, _, _, rfl⟩ := Effect.exists_of_isLog hl
    rw [Settlement.first_settle, hopen]
    exact ⟨rfl, rfl, rfl, by rw [hsettled, hopen]; rfl, by rw [hpresent]; rfl⟩
  | ended o inbox e line line' hp _ _ hl hl' =>
    have ha := h.running hp
    have hpresent : s.isPresent = s.settlement.settled := by
      rw [Bool.eq_iff_iff, ha.settled, isPresent, ha.published, decide_eq_true_iff]
    have hstarted : s.isStarted = true := by simp [isStarted, hp]
    have hsettled : (s.ended inbox e).settlement.settled = true := Settlement.settled_settle ..
    obtain ⟨_, _, _, rfl⟩ := Effect.exists_of_isLog hl
    obtain ⟨_, _, _, rfl⟩ := Effect.exists_of_isLog hl'
    rw [Settlement.first_settle]
    cases hopen : s.settlement.settled <;>
      exact ⟨by rw [hstarted]; rfl, by rw [hstarted]; rfl, by rw [hp]; rfl,
        by rw [hsettled, hopen]; rfl, by rw [hpresent, hopen]; rfl⟩

end Session

namespace Seat

/-- What the session has done, the oldest first. -/
def effects (seat : Seat) : List Effect := seat.journal.toList.map (·.2)

/-- How often the session has had an effect. -/
def times (seat : Seat) (e : Effect) : Nat := seat.effects.count e

end Seat

theorem Journal.toList_note (j : Journal) (now : Nat) (es : List Effect) :
    (j.note now es).toList = j.toList ++ es.map (now, ·) := by
  unfold Journal.note
  induction es generalizing j with
  | nil => rw [List.map_nil, List.append_nil]; rfl
  | cons e es ih => rw [List.foldl_cons, ih, Array.toList_push]; simp

namespace Seat

theorem effects_advance (seat : Seat) (result : Session × List Effect) :
    (seat.advance result).effects = seat.effects ++ result.2 := by
  rw [effects, advance, Journal.toList_note, List.map_append, List.map_map]
  congr 1
  exact List.map_id _

/-- What a session does in a move. -/
def does (seat : Seat) : Move → List Effect
  | .act draw task => (seat.session.step draw task).2
  | _ => []

theorem effects_move (seat : Seat) (m : Move) :
    (seat.move m).effects = seat.effects ++ seat.does m := by
  cases m with
  | act draw task => exact seat.effects_advance _
  | _ => exact (List.append_nil _).symm

theorem booked_move {seat : Seat} (h : seat.session.Coherent) (m : Move) :
    Session.Booked seat.session (seat.move m).session (seat.does m) := by
  cases m with
  | act draw task =>
    cases task with
    | work => exact (Session.step_work h draw).booked h
    | report => exact (Session.alike_report draw).booked (by simp [does, Session.effects_report])
    | routine task =>
      exact (Session.alike_routine draw task).booked (Session.effects_routine seat.session draw task)
  | _ => exact (seat.alike_move (by simp)).booked (by simp [does])

/-- All that a session has counted agrees with how it stands. -/
structure Counted (seat : Seat) : Prop where
  coherent : seat.session.Coherent
  started : seat.times (.count .started) = seat.session.isStarted.toNat
  entered : seat.times .enter = seat.session.isStarted.toNat
  left : seat.times .leave = seat.session.phase.isOver.toNat
  settled : seat.times (.count .logins) + seat.times (.count .failures) =
    seat.session.settlement.settled.toNat
  present : seat.times (.count .logins) =
    seat.times (.count .endedAfterLogin) + seat.session.isPresent.toNat

theorem counted_fresh (start : Nat) (settings : SessionSettings) (pace : Option Pace)
    (script : Script) : (fresh start settings pace script).Counted :=
  ⟨coherent_fresh start settings pace script, rfl, rfl, rfl, rfl, rfl⟩

theorem times_move (seat : Seat) (m : Move) (e : Effect) :
    (seat.move m).times e = seat.times e + (seat.does m).count e := by
  rw [times, effects_move, List.count_append]
  rfl

/-- **Whatever happens to a session, it counts it.** -/
theorem Counted.move {seat : Seat} (h : seat.Counted) (m : Move) : (seat.move m).Counted where
  coherent := coherent_move seat m h.coherent
  started := by rw [times_move, h.started, (booked_move h.coherent m).started]
  entered := by rw [times_move, h.entered, (booked_move h.coherent m).entered]
  left := by rw [times_move, h.left, (booked_move h.coherent m).left]
  settled := by
    rw [times_move, times_move, (booked_move h.coherent m).settled, ← h.settled]
    omega
  present := by
    have := (booked_move h.coherent m).present
    have := h.present
    rw [times_move, times_move]
    omega

namespace Counted

variable {seat : Seat} (h : seat.Counted)
include h

theorem started_eq : seat.times (.count .started) = seat.session.isOpen.toNat +
    (seat.times (.count .logins) + seat.times (.count .failures)) := by
  rw [h.started, h.settled, Session.isOpen]
  cases hs : seat.session.isStarted with
  | true => cases seat.session.settlement.settled <;> rfl
  | false =>
    have hp : seat.session.phase = .fresh := by simpa [Session.isStarted] using hs
    rw [(h.coherent.fresh hp).unsettled]
    rfl

theorem entered_eq : seat.times .enter = seat.session.isWorking.toNat + seat.times .leave := by
  rw [h.entered, h.left, Session.isStarted_eq]

/-- A session counts at most one login or failure, and an end after login only after a login. -/
theorem once : seat.times (.count .logins) + seat.times (.count .failures) ≤ 1 ∧
    seat.times (.count .endedAfterLogin) ≤ seat.times (.count .logins) := by
  rw [h.settled, h.present]
  exact ⟨Bool.toNat_le _, Nat.le_add_right ..⟩

end Counted

end Seat

end BotFleet
