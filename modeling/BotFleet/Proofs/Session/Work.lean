import BotFleet.Proofs.Routine.Step
import BotFleet.Proofs.Session.Delivery
import BotFleet.Proofs.Session.Occurrence
import BotFleet.Session.Basic

/-!
# The steps of a session

* `Session.Coherent`: what holds of a session between any two steps;
* `Session.sight?`: what the work of a session sees in its next step;
* **`Session.step_work`**: everything that a step of the work can come to (`Session.Worked`);
* `Session.step_report`, `Session.step_routine`: the same for the other tasks;
* **`Session.coherent_step`**: a step keeps a session coherent.
-/

namespace BotFleet

namespace Session

/-! ## Coherence -/

/-- Before a client is connected, and after connecting crashed, nothing has been settled. -/
structure Untouched (s : Session) : Prop where
  lifecycle : s.lifecycle = .start
  published : s.published = .connecting
  unsettled : s.settlement.settled = false
  kept : s.routineEnded = false
  routine : s.routine = none

/-- While a session follows its client, its login is settled exactly if it is logged in. -/
structure Alive (s : Session) : Prop where
  stage : s.lifecycle.stage ≠ .terminated
  published : s.published = s.lifecycle.stage
  settled : s.settlement.settled = true ↔ s.lifecycle.stage = .loggedIn
  kept : s.routineEnded = false
  routine : s.lifecycle.spawned = false → s.routine = none

/-- A session that is over has settled its login, and its routine, if it has one, is cancelled. -/
structure Ended (s : Session) : Prop where
  published : s.published = .terminated
  settled : s.settlement.settled = true
  routine : s.routineEnded = true ∨ s.routine = none

/-- What holds of a session between any two steps. -/
def Coherent (s : Session) : Prop :=
  match s.phase with
  | .fresh | .crashed _ => s.Untouched
  | .connecting due => s.Untouched ∧ due.isSome = s.script.opening.isSome
  | .running => s.Alive
  | .finished => s.Ended

theorem coherent_start (settings : SessionSettings) (pace : Option Pace) (script : Script) :
    (start settings pace script).Coherent :=
  ⟨rfl, rfl, rfl, rfl, rfl⟩

section Coherent

variable {s : Session} (h : s.Coherent)
include h

theorem Coherent.fresh (hp : s.phase = .fresh) : s.Untouched := by
  unfold Coherent at h; rwa [hp] at h

theorem Coherent.connecting {due : Option Nat} (hp : s.phase = .connecting due) :
    s.Untouched ∧ due.isSome = s.script.opening.isSome := by
  unfold Coherent at h; rwa [hp] at h

theorem Coherent.running (hp : s.phase = .running) : s.Alive := by
  unfold Coherent at h; rwa [hp] at h

theorem Coherent.finished (hp : s.phase = .finished) : s.Ended := by
  unfold Coherent at h; rwa [hp] at h

theorem Coherent.crashed {message : String} (hp : s.phase = .crashed message) : s.Untouched := by
  unfold Coherent at h; rwa [hp] at h

end Coherent

theorem Alive.coherent {s : Session} (h : s.Alive) (hp : s.phase = .running) : s.Coherent := by
  unfold Coherent; rwa [hp]

/-! ## What the work can come to -/

/-- What the work of a session sees in its next step. -/
def sight? (s : Session) : Option Occurrence :=
  if s.ready .work then
    if s.stopping then some .stop
    else
      match s.phase with
      | .connecting _ => s.script.opening.map fun o => .opening o.2
      | .running => s.inbox.head?.map .report
      | _ => none
  else none

/-- A session that has begun to connect. -/
def begun (s : Session) : Session :=
  { s with phase := .connecting (s.script.opening.map fun o => Clock.wake s.clock o.1) }

/-- A session whose client has been connected. -/
def opened (s : Session) : Session := { s with phase := .running, feed := s.script.feed s.clock }

/-- A session in which connecting has crashed. -/
def collapsed (s : Session) (message : String) : Session :=
  { s with phase := .crashed message, settlement := s.settlement.abandon }

/-- A session that has looked at an event without consequences. -/
def noted (s : Session) (inbox : List Report) : Session :=
  { s with inbox, published := s.lifecycle.stage }

/-- A session that has looked at its first spawn. -/
def spawned (s : Session) (inbox : List Report) : Session :=
  { s with
    inbox
    lifecycle := s.lifecycle.spawn.1
    published := s.lifecycle.spawn.1.stage
    routine := (s.pace.map fun pace => .attach pace s.clock).or s.routine }

/-- A session that has looked at its first login. -/
def loggedIn (s : Session) (inbox : List Report) : Session :=
  { s with
    inbox
    lifecycle := { s.lifecycle with stage := .loggedIn }
    published := .loggedIn
    settlement := (s.settlement.settle .success).1 }

/-- A session that has been brought to its end. -/
def ended (s : Session) (inbox : List Report) (e : Ending) : Session :=
  { s with
    inbox
    lifecycle := { s.lifecycle with stage := .terminated, ending := some e }
    phase := .finished
    published := .terminated
    routineEnded := true
    settlement := (s.settlement.settle (.failure e.toFailure)).1 }

/-- Everything that a step of the work can come to: what it sees, the session after it, and its
effects. -/
inductive Worked (s : Session) : Option Occurrence → Session → List Effect → Prop where
  | idle : s.ready .work = false → Worked s none s []
  | begun : s.phase = .fresh → s.stopping = false →
      Worked s none s.begun [.count .started, .enter, .connect]
  | stoppedEarly (line : Effect) : s.phase = .fresh → s.stopping = true → line.isLog →
      Worked s (some .stop) (s.fail ⟨.disconnected, "shutdown requested"⟩)
        [.count .started, .enter, line, .count .failures, .leave]
  | stopped (due : Option Nat) (line : Effect) : s.phase = .connecting due → s.stopping = true →
      line.isLog →
      Worked s (some .stop) (s.fail ⟨.disconnected, "shutdown requested"⟩)
        [line, .count .failures, .leave]
  | refused (due : Option Nat) (delay : Nat) (f : Client.Fault) (line : Effect) :
      s.phase = .connecting due → s.stopping = false →
      s.script.opening = some (delay, .failed f) → line.isLog →
      Worked s (some (.opening (.failed f))) (s.fail ⟨.connection, f.message⟩)
        [line, .count .failures, .leave]
  | crashed (due : Option Nat) (delay : Nat) (message : String) :
      s.phase = .connecting due → s.stopping = false →
      s.script.opening = some (delay, .crashed message) →
      Worked s (some (.opening (.crashed message))) (s.collapsed message) [.leave]
  | opened (due : Option Nat) (delay : Nat) (line : Effect) :
      s.phase = .connecting due → s.stopping = false →
      s.script.opening = some (delay, .opened) → line.isLog →
      Worked s (some (.opening .opened)) s.opened [line]
  | noted (e : Client.Event) (rest : List Report) (line : Effect) :
      s.phase = .running → s.stopping = false → s.inbox = .event e :: rest →
      (Occurrence.report (.event e)).isFinal = false →
      (e = .login → s.lifecycle.stage = .loggedIn) → line.isLog →
      (e = .spawn → s.lifecycle.spawned = true) →
      Worked s (some (.report (.event e))) (s.noted rest) [line]
  | spawned (rest : List Report) (lines : List Effect) :
      s.phase = .running → s.stopping = false → s.inbox = .event .spawn :: rest →
      s.lifecycle.spawned = false → (∀ line ∈ lines, line.isLog) →
      Worked s (some (.report (.event .spawn))) (s.spawned rest) lines
  | loggedIn (rest : List Report) (line : Effect) :
      s.phase = .running → s.stopping = false → s.inbox = .event .login :: rest →
      s.lifecycle.stage ≠ .loggedIn → line.isLog →
      Worked s (some (.report (.event .login))) (s.loggedIn rest)
        (line :: if (s.settlement.settle .success).2 then [.count .logins] else [])
  | ended (o : Occurrence) (inbox : List Report) (e : Ending) (line line' : Effect) :
      s.phase = .running →
      (o = .stop ∧ s.stopping = true ∨
        s.stopping = false ∧ ∃ r rest, o = .report r ∧ s.inbox = r :: rest) →
      o.verdict? = some (.failure e.toFailure) → line.isLog → line'.isLog →
      Worked s (some o) (s.ended inbox e)
        (line :: (if (s.settlement.settle (.failure e.toFailure)).2 then [.count .failures]
          else [.count .endedAfterLogin, line']) ++ [.leave])

theorem isLog_logLine (s : Session) (level : Level) (message : String) :
    (s.logLine level message).isLog = true := rfl

theorem isLog_endLine (s : Session) (e : Ending) : (s.endLine e).isLog = true := by
  unfold endLine
  cases e.cause <;> rfl

section Worked

variable {s : Session}

theorem ready_of_fresh (hp : s.phase = .fresh) : s.ready .work = true := by
  simp [ready, hp]

theorem ready_of_connecting {due : Option Nat} (hp : s.phase = .connecting due) :
    s.ready .work = (s.stopping || due.any (· ≤ s.clock)) := by
  simp [ready, hp]

theorem ready_of_running (hp : s.phase = .running) :
    s.ready .work = (s.stopping || !s.inbox.isEmpty) := by
  simp [ready, hp]

theorem not_ready_of_isOver (hp : s.phase.isOver = true) : s.ready .work = false := by
  cases h : s.phase <;> simp_all [ready, Phase.isOver]

theorem sight?_of_stopping (hr : s.ready .work = true) (hs : s.stopping = true) :
    s.sight? = some .stop := by
  simp [sight?, hr, hs]

theorem sight?_of_idle (hr : s.ready .work = false) : s.sight? = none := by
  simp [sight?, hr]

theorem worked_begin (hp : s.phase = .fresh) : Worked s s.sight? s.begin.1 s.begin.2 := by
  have hr := ready_of_fresh hp
  by_cases hs : s.stopping = true
  · rw [sight?_of_stopping hr hs, begin, if_pos hs]
    exact .stoppedEarly _ hp hs (isLog_logLine ..)
  · have hsight : s.sight? = none := by simp [sight?, hs, hp]
    rw [hsight, begin, if_neg hs]
    exact .begun hp (Bool.not_eq_true _ ▸ hs)

theorem worked_connect {due : Option Nat} (hp : s.phase = .connecting due)
    (hdue : due.isSome = s.script.opening.isSome) (hr : s.ready .work = true) :
    Worked s s.sight? s.connect.1 s.connect.2 := by
  by_cases hs : s.stopping = true
  · rw [sight?_of_stopping hr hs, connect, if_pos hs]
    exact .stopped due _ hp hs (isLog_logLine ..)
  · obtain ⟨delay, o, ho⟩ : ∃ delay o, s.script.opening = some (delay, o) := by
      cases due with
      | none => simp [ready_of_connecting hp, hs] at hr
      | some d =>
        obtain ⟨x, hx⟩ := Option.isSome_iff_exists.mp hdue.symm
        exact ⟨x.1, x.2, hx⟩
    have hsight : s.sight? = some (.opening o) := by simp [sight?, hr, hs, hp, ho]
    have hs' : s.stopping = false := by simpa using hs
    rw [hsight, connect, if_neg hs, ho]
    cases o with
    | opened => exact .opened due delay _ hp hs' ho (isLog_logLine ..)
    | failed f => exact .refused due delay f _ hp hs' ho (isLog_logLine ..)
    | crashed message => exact .crashed due delay message hp hs' ho

/-! ### Looking at a report -/

theorem worked_finish (hp : s.phase = .running) (ha : s.Alive) {o : Occurrence} {e : Ending}
    (inbox : List Report)
    (ho : o = .stop ∧ s.stopping = true ∨
      s.stopping = false ∧ ∃ r rest, o = .report r ∧ s.inbox = r :: rest)
    (hv : o.verdict? = some (.failure e.toFailure)) :
    Worked s (some o) ({ s with inbox }.follow (s.lifecycle.finish e)).1
      ({ s with inbox }.follow (s.lifecycle.finish e)).2 := by
  rw [Lifecycle.finish, if_neg ha.stage]
  exact .ended o inbox e _ _ hp ho hv (isLog_endLine ..) (isLog_logLine ..)

theorem worked_spawn (hp : s.phase = .running) (hs : s.stopping = false) {rest : List Report}
    (hi : s.inbox = .event .spawn :: rest) (ha : s.Alive) :
    Worked s (some (.report (.event .spawn))) ({ s with inbox := rest }.follow s.lifecycle.spawn).1
      ({ s with inbox := rest }.follow s.lifecycle.spawn).2 := by
  by_cases hsp : s.lifecycle.spawned = true
  · have hspawn : s.lifecycle.spawn = (s.lifecycle, .ignore) := by
      simp [Lifecycle.spawn, hsp]
    rw [hspawn]
    exact .noted .spawn rest _ hp hs hi rfl (by simp) (isLog_logLine ..) (fun _ => hsp)
  · have hsp : s.lifecycle.spawned = false := by simpa using hsp
    have hreact : s.lifecycle.spawn.2 = .startRoutine := by
      simp [Lifecycle.spawn, hsp, ha.stage]
    have hw (lines : List Effect) (hlines : ∀ line ∈ lines, line.isLog) :=
      Worked.spawned rest lines hp hs hi hsp hlines
    rw [follow, hreact]
    unfold spawned at hw
    cases hpace : s.pace with
    | none =>
      simp only [react, startRoutine, hpace, Option.map_none, Option.none_or] at hw ⊢
      exact hw _ (by simp [isLog_logLine])
    | some pace =>
      simp only [react, startRoutine, hpace, Option.map_some, Option.some_or] at hw ⊢
      exact hw _ (by simp [Effect.isLog, logLine])

theorem worked_login (hp : s.phase = .running) (hs : s.stopping = false) {rest : List Report}
    (hi : s.inbox = .event .login :: rest) (ha : s.Alive) :
    Worked s (some (.report (.event .login))) ({ s with inbox := rest }.follow s.lifecycle.login).1
      ({ s with inbox := rest }.follow s.lifecycle.login).2 := by
  by_cases hl : s.lifecycle.stage = .loggedIn
  · rw [Lifecycle.login, if_pos (.inr hl)]
    exact .noted .login rest _ hp hs hi (by decide) (fun _ => hl) (isLog_logLine ..) (by simp)
  · rw [Lifecycle.login, if_neg (not_or.mpr ⟨ha.stage, hl⟩)]
    exact .loggedIn rest _ hp hs hi hl (isLog_logLine ..)

theorem worked_event (hp : s.phase = .running) (hs : s.stopping = false) {e : Client.Event}
    {rest : List Report} (hi : s.inbox = .event e :: rest) (ha : s.Alive) :
    Worked s (some (.report (.event e))) ({ s with inbox := rest }.follow (s.lifecycle.apply e)).1
      ({ s with inbox := rest }.follow (s.lifecycle.apply e)).2 := by
  have ho : Occurrence.report (.event e) = .stop ∧ s.stopping = true ∨
      s.stopping = false ∧ ∃ r rest, Occurrence.report (.event e) = .report r ∧
        s.inbox = r :: rest := .inr ⟨hs, _, rest, rfl, hi⟩
  cases e with
  | spawn => exact worked_spawn hp hs hi ha
  | login => exact worked_login hp hs hi ha
  | chat speaker text =>
    rw [Lifecycle.apply, if_neg ha.stage]
    exact .noted (.chat speaker text) rest _ hp hs hi rfl (by simp) (isLog_logLine ..) (by simp)
  | kicked reason => exact worked_finish hp ha rest ho rfl
  | ended reason => exact worked_finish hp ha rest ho rfl
  | failed message => exact worked_finish hp ha rest ho rfl

theorem worked_attend (hp : s.phase = .running) (ha : s.Alive) (hr : s.ready .work = true) :
    Worked s s.sight? s.attend.1 s.attend.2 := by
  by_cases hs : s.stopping = true
  · rw [sight?_of_stopping hr hs, attend, if_pos hs]
    exact worked_finish hp ha s.inbox (.inl ⟨rfl, hs⟩) rfl
  · have hs' : s.stopping = false := by simpa using hs
    rw [attend, if_neg hs]
    cases hi : s.inbox with
    | nil => simp [ready_of_running hp, hs, hi] at hr
    | cons r rest =>
      have hsight : s.sight? = some (.report r) := by simp [sight?, hr, hs, hp, hi]
      rw [hsight]
      cases r with
      | event e => exact worked_event hp hs' hi ha
      | closed =>
        exact worked_finish hp ha s.inbox (.inr ⟨hs', .closed, rest, rfl, hi⟩) rfl

/-- **Everything that a step of the work can come to.** -/
theorem step_work (h : s.Coherent) (draw : Draw) :
    Worked s s.sight? (s.step draw .work).1 (s.step draw .work).2 := by
  by_cases hr : s.ready .work = true
  · cases hp : s.phase with
    | fresh =>
      simp only [step, hr, hp, if_true]
      exact worked_begin hp
    | connecting due =>
      simp only [step, hr, hp, if_true]
      exact worked_connect hp (h.connecting hp).2 hr
    | running =>
      simp only [step, hr, hp, if_true]
      exact worked_attend hp (h.running hp) hr
    | finished => simp [not_ready_of_isOver, hp, Phase.isOver] at hr
    | crashed message => simp [not_ready_of_isOver, hp, Phase.isOver] at hr
  · have hr : s.ready .work = false := by simpa using hr
    rw [sight?_of_idle hr]
    simp only [step, hr, Bool.false_eq_true, if_false]
    exact .idle hr

/-! ### The other tasks -/

theorem step_report (s : Session) (draw : Draw) :
    s.ready .report = false ∧ s.step draw .report = (s, []) ∨
      ∃ due r rest, s.phase = .running ∧ s.feed = (due, r) :: rest ∧ due ≤ s.clock ∧
        s.step draw .report = ({ s with feed := rest, inbox := s.inbox ++ [r] }, []) := by
  by_cases hr : s.ready .report = true
  · refine .inr ?_
    cases hp : s.phase <;> cases hf : s.feed <;> simp [ready, hp, hf] at hr
    rename_i x rest
    exact ⟨x.1, x.2, rest, rfl, rfl, hr, by simp [step, ready, hp, hf, hr]⟩
  · have hr : s.ready .report = false := by simpa using hr
    exact .inl ⟨hr, by simp [step, hr]⟩

theorem step_routine (s : Session) (draw : Draw) (task : Routine.Task) :
    s.ready (.routine task) = false ∧ s.step draw (.routine task) = (s, []) ∨
      ∃ r, s.routine = some r ∧ r.ready s.situation task = true ∧ s.step draw (.routine task) =
        ({ s with routine := some (r.step s.situation draw task).1 },
          (r.step s.situation draw task).2) := by
  by_cases hr : s.ready (.routine task) = true
  · obtain ⟨r, hroutine, hready⟩ := (Option.any_eq_true ..).mp hr
    exact .inr ⟨r, hroutine, hready, by simp only [step, hr, if_true, hroutine]⟩
  · have hr : s.ready (.routine task) = false := by simpa using hr
    exact .inl ⟨hr, by simp [step, hr]⟩

theorem effects_report (s : Session) (draw : Draw) : (s.step draw .report).2 = [] := by
  rcases step_report s draw with ⟨-, hs⟩ | ⟨_, _, _, -, -, -, hs⟩ <;> rw [hs]

theorem effects_routine (s : Session) (draw : Draw) (task : Routine.Task) :
    ∀ e ∈ (s.step draw (.routine task)).2, e.isDeed = true ∨ e.isLog = true := by
  rcases step_routine s draw task with ⟨-, hs⟩ | ⟨r, -, hr, hs⟩ <;> rw [hs]
  · simp
  · exact (Routine.stepped hr draw).effects

end Worked

/-! ## What steps keep -/

/-- What no step changes. -/
structure Frame (s s' : Session) : Prop where
  settings : s'.settings = s.settings
  pace : s'.pace = s.pace
  script : s'.script = s.script
  clock : s'.clock = s.clock
  stopping : s'.stopping = s.stopping

theorem Worked.frame {s s' : Session} {o? : Option Occurrence} {es : List Effect}
    (h : Worked s o? s' es) : Frame s s' := by
  cases h <;> exact ⟨rfl, rfl, rfl, rfl, rfl⟩

/-- **A step keeps what a session was started with, its clock, and a request to stop.** -/
theorem frame_step {s : Session} (h : s.Coherent) (draw : Draw) (task : Task) :
    Frame s (s.step draw task).1 := by
  cases task with
  | work => exact (step_work h draw).frame
  | report =>
    rcases step_report s draw with ⟨-, hs⟩ | ⟨due, r, rest, -, -, -, hs⟩ <;> rw [hs] <;>
      exact ⟨rfl, rfl, rfl, rfl, rfl⟩
  | routine task =>
    rcases step_routine s draw task with ⟨-, hs⟩ | ⟨r, -, -, hs⟩ <;> rw [hs] <;>
      exact ⟨rfl, rfl, rfl, rfl, rfl⟩

theorem stage_spawn {l : Lifecycle} (h : l.stage ≠ .terminated) :
    l.spawn.1.stage ≠ .terminated ∧ (l.spawn.1.stage = .loggedIn ↔ l.stage = .loggedIn) := by
  unfold Lifecycle.spawn
  by_cases hsp : l.spawned = true
  · simp [hsp, h]
  · cases hl : l.stage <;> simp_all

theorem Untouched.fail {s : Session} (h : s.Untouched) (cause : LoginFailure) :
    (s.fail cause).Ended :=
  ⟨rfl, Settlement.settled_settle .., .inr h.routine⟩

theorem Worked.coherent {s s' : Session} {o? : Option Occurrence} {es : List Effect}
    (h : s.Coherent) (hw : Worked s o? s' es) : s'.Coherent := by
  cases hw with
  | idle => exact h
  | begun hp _ =>
    have hu := h.fresh hp
    exact ⟨⟨hu.lifecycle, hu.published, hu.unsettled, hu.kept, hu.routine⟩, Option.isSome_map⟩
  | stoppedEarly _ hp _ _ => exact (h.fresh hp).fail _
  | stopped _ _ hp _ _ => exact (h.connecting hp).1.fail _
  | refused _ _ _ _ hp _ _ _ => exact (h.connecting hp).1.fail _
  | crashed _ _ _ hp _ _ =>
    have hu := (h.connecting hp).1
    exact ⟨hu.lifecycle, hu.published, (Settlement.settled_abandon _).trans hu.unsettled, hu.kept,
      hu.routine⟩
  | opened _ _ _ hp _ _ _ =>
    have hu := (h.connecting hp).1
    refine ⟨?_, ?_, ?_, hu.kept, fun _ => hu.routine⟩
    · simp [Session.opened, hu.lifecycle, Lifecycle.start]
    · simp [Session.opened, hu.lifecycle, hu.published, Lifecycle.start]
    · simp [Session.opened, hu.lifecycle, hu.unsettled, Lifecycle.start]
  | noted _ rest _ hp _ _ _ _ _ =>
    have ha := h.running hp
    have hc : (s.noted rest).Alive := ⟨ha.stage, rfl, ha.settled, ha.kept, ha.routine⟩
    exact hc.coherent hp
  | spawned rest _ hp _ _ hsp _ =>
    have ha := h.running hp
    have hl := stage_spawn ha.stage
    have hsp' : s.lifecycle.spawn.1.spawned = true := by simp [Lifecycle.spawn, ha.stage, hsp]
    have hc : (s.spawned rest).Alive :=
      ⟨hl.1, rfl, ha.settled.trans hl.2.symm, ha.kept, fun hns => by
        rw [show (s.spawned rest).lifecycle.spawned = true from hsp'] at hns
        cases hns⟩
    exact hc.coherent hp
  | loggedIn rest _ hp _ _ _ _ =>
    have ha := h.running hp
    have hc : (s.loggedIn rest).Alive :=
      ⟨by simp [Session.loggedIn], rfl, by simp [Session.loggedIn], ha.kept, ha.routine⟩
    exact hc.coherent hp
  | ended _ _ _ _ _ hp _ _ _ _ => exact ⟨rfl, Settlement.settled_settle .., .inl rfl⟩

/-- Two sessions that stand alike, as far as coherence is concerned. -/
structure Alike (s s' : Session) : Prop where
  script : s'.script = s.script
  phase : s'.phase = s.phase
  lifecycle : s'.lifecycle = s.lifecycle
  published : s'.published = s.published
  settled : s'.settlement.settled = s.settlement.settled
  kept : s'.routineEnded = s.routineEnded
  routine : s'.routine.isSome = s.routine.isSome

namespace Alike

variable {s s' : Session} (a : Alike s s')
include a

theorem routine_none : s'.routine = none ↔ s.routine = none := by
  rw [← Option.not_isSome_iff_eq_none, ← Option.not_isSome_iff_eq_none, a.routine]

theorem untouched (h : s.Untouched) : s'.Untouched :=
  ⟨a.lifecycle.trans h.lifecycle, a.published.trans h.published, a.settled.trans h.unsettled,
    a.kept.trans h.kept, a.routine_none.mpr h.routine⟩

theorem alive (h : s.Alive) : s'.Alive where
  stage := by rw [a.lifecycle]; exact h.stage
  published := by rw [a.published, a.lifecycle]; exact h.published
  settled := by rw [a.settled, a.lifecycle]; exact h.settled
  kept := a.kept.trans h.kept
  routine := fun hs => a.routine_none.mpr (h.routine (by rwa [a.lifecycle] at hs))

theorem ended (h : s.Ended) : s'.Ended :=
  ⟨a.published.trans h.published, a.settled.trans h.settled,
    h.routine.imp a.kept.trans a.routine_none.mpr⟩

theorem coherent (h : s.Coherent) : s'.Coherent := by
  unfold Coherent at h ⊢
  rw [a.phase, a.script]
  cases hp : s.phase <;> rw [hp] at h
  · exact a.untouched h
  · exact ⟨a.untouched h.1, h.2⟩
  · exact a.alive h
  · exact a.ended h
  · exact a.untouched h

end Alike

theorem alike_report {s : Session} (draw : Draw) : Alike s (s.step draw .report).1 := by
  rcases step_report s draw with ⟨-, hs⟩ | ⟨due, r, rest, -, -, -, hs⟩ <;> rw [hs] <;>
    exact ⟨rfl, rfl, rfl, rfl, rfl, rfl, rfl⟩

theorem alike_routine {s : Session} (draw : Draw) (task : Routine.Task) :
    Alike s (s.step draw (.routine task)).1 := by
  rcases step_routine s draw task with ⟨-, hs⟩ | ⟨r, hr, -, hs⟩ <;> rw [hs]
  · exact ⟨rfl, rfl, rfl, rfl, rfl, rfl, rfl⟩
  · exact ⟨rfl, rfl, rfl, rfl, rfl, rfl, by rw [hr]; rfl⟩

/-- **A step keeps a session coherent.** -/
theorem coherent_step {s : Session} (h : s.Coherent) (draw : Draw) (task : Task) :
    (s.step draw task).1.Coherent := by
  cases task with
  | work => exact (step_work h draw).coherent h
  | report => exact (alike_report draw).coherent h
  | routine task => exact (alike_routine draw task).coherent h

end Session

end BotFleet
