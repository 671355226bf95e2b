import BotFleet.Proofs.Seat.Count
import BotFleet.Proofs.Seat.Login

/-!
# Cancelled sessions stay silent

* `Seat.deeds`: the calls that a session has made on its client, and the counting of them;
* `Session.Quiet`: a session that was asked to stop, or whose work is over;
* `Routine.Fades`, `Session.Wanes`: a routine stops its activities and drops its releases, and none
  is attached;
* **`Seat.silent_run`**: a quiet session does no more deeds, whatever happens;
* **`Seat.cancelled_silent`**: the law of the cancellation.
-/

namespace BotFleet

namespace Routine

/-- What becomes of a routine that is cancelled: its activities stop, and its releases are
dropped. -/
structure Fades (r r' : Routine) : Prop where
  moving : r'.moving = r.moving ∨ r'.moving = .stopped
  chatting : r'.chatting = r.chatting ∨ r'.chatting = .stopped
  releases : r'.releases.Sublist r.releases

theorem Fades.refl (r : Routine) : Fades r r := ⟨.inl rfl, .inl rfl, .refl _⟩

theorem Fades.trans {r r' r'' : Routine} (h : Fades r r') (h' : Fades r' r'') : Fades r r'' where
  moving := h'.moving.elim (fun he => he ▸ h.moving) .inr
  chatting := h'.chatting.elim (fun he => he ▸ h.chatting) .inr
  releases := h'.releases.trans h.releases

theorem Stepped.fades {r r' : Routine} {c : Situation} {task : Task} {es : List Effect}
    (h : Stepped r c task r' es) (hc : c.cancelled = true) : Fades r r' := by
  cases h with
  | stoppedMoving => exact ⟨.inr rfl, .inl rfl, .refl _⟩
  | stoppedChatting => exact ⟨.inl rfl, .inr rfl, .refl _⟩
  | dropped => exact ⟨.inl rfl, .inl rfl, List.eraseIdx_sublist ..⟩
  | moved _ _ _ _ _ hc' | chatted _ _ _ _ hc' | released _ _ _ _ hc' => rw [hc] at hc'; cases hc'

end Routine

namespace Session

/-- The session was asked to stop, or its work is over. -/
def Quiet (s : Session) : Prop := s.stopping = true ∨ s.phase.isOver = true

/-- Any routine of the later session was there before, and has faded since. -/
def Wanes (s s' : Session) : Prop := ∀ r' ∈ s'.routine, ∃ r ∈ s.routine, r.Fades r'

theorem wanes_of_eq {s s' : Session} (h : s'.routine = s.routine) : Wanes s s' :=
  fun r hr => ⟨r, h ▸ hr, .refl r⟩

theorem Wanes.trans {s s' s'' : Session} (h : Wanes s s') (h' : Wanes s' s'') : Wanes s s'' := by
  intro r'' hr''
  obtain ⟨r', hr', hfades'⟩ := h' r'' hr''
  obtain ⟨r, hr, hfades⟩ := h r' hr'
  exact ⟨r, hr, hfades.trans hfades'⟩

theorem Quiet.cancelled {s : Session} (hq : s.Quiet) (h : s.Coherent) {r : Routine}
    (hr : s.routine = some r) : s.situation.cancelled = true := by
  rcases hq with hs | ho
  · simp [situation, hs]
  · cases hp : s.phase with
    | finished =>
      have hkept := (h.finished hp).routine.resolve_right (by simp [hr])
      simp [situation, hkept]
    | crashed message =>
      have hnone := (h.crashed hp).routine
      rw [hr] at hnone
      cases hnone
    | _ => rw [hp] at ho; cases ho

theorem Worked.no_deeds {s s' : Session} {o? : Option Occurrence} {es : List Effect}
    (hw : Worked s o? s' es) : es.filter Effect.isDeed = [] := by
  have hdrop {line : Effect} (hl : line.isLog = true) (es : List Effect) :
      (line :: es).filter Effect.isDeed = es.filter Effect.isDeed :=
    List.filter_cons_of_neg (by rw [Effect.not_isDeed_of_isLog hl]; exact Bool.false_ne_true)
  cases hw with
  | idle | begun | crashed => rfl
  | stoppedEarly _ _ _ hl => exact hdrop hl _
  | stopped _ _ _ _ hl => exact hdrop hl _
  | refused _ _ _ _ _ _ _ hl => exact hdrop hl _
  | opened _ _ _ _ _ _ hl => exact hdrop hl _
  | noted _ _ _ _ _ _ _ _ hl => exact hdrop hl _
  | spawned _ _ _ _ _ _ hl => exact Effect.filter_isDeed_of_isLog hl
  | loggedIn _ _ _ _ _ _ hl =>
    rw [hdrop hl]
    split <;> rfl
  | ended _ _ _ _ _ _ _ _ hl hl' =>
    rw [List.cons_append, hdrop hl]
    split
    · rfl
    · exact hdrop hl' _

theorem Worked.wanes {s s' : Session} {o? : Option Occurrence} {es : List Effect}
    (hw : Worked s o? s' es) (hq : s.Quiet) : Wanes s s' := by
  cases hw with
  | spawned _ _ hp hs _ _ _ =>
    rcases hq with hstop | hover
    · rw [hs] at hstop; cases hstop
    · rw [hp] at hover; cases hover
  | _ => exact wanes_of_eq rfl

end Session

namespace Seat

/-- The calls that the session has made on its client, and the counting of them. -/
def deeds (seat : Seat) : List Effect := seat.effects.filter Effect.isDeed

theorem silent_does {seat : Seat} (h : seat.session.Coherent) (hq : seat.session.Quiet) (m : Move) :
    (seat.does m).filter Effect.isDeed = [] ∧
      Session.Wanes seat.session (seat.move m).session := by
  cases m with
  | act draw task =>
    cases task with
    | work =>
      have hw := Session.step_work h draw
      exact ⟨hw.no_deeds, hw.wanes hq⟩
    | report =>
      refine ⟨by rw [does, Session.effects_report]; rfl, ?_⟩
      rcases Session.step_report seat.session draw with ⟨-, hs⟩ | ⟨_, _, _, -, -, -, hs⟩ <;>
        rw [move, hs] <;> exact Session.wanes_of_eq rfl
    | routine task =>
      rcases Session.step_routine seat.session draw task with ⟨-, hs⟩ | ⟨r, hr, hready, hs⟩
      · rw [does, move, hs]
        exact ⟨rfl, Session.wanes_of_eq rfl⟩
      · have hstep := Routine.stepped hready draw
        have hc := hq.cancelled h hr
        rw [does, move, hs]
        refine ⟨Effect.filter_isDeed_of_isLog (hstep.cancelled hc), fun r' hr' => ⟨r, hr, ?_⟩⟩
        cases hr'
        exact hstep.fades hc
  | change responses =>
    refine ⟨rfl, Session.wanes_of_eq ?_⟩
    simp only [move, Session.change]
    split <;> rfl
  | _ => exact ⟨rfl, Session.wanes_of_eq rfl⟩

theorem quiet_move {seat : Seat} (h : seat.session.Coherent) (hq : seat.session.Quiet) (m : Move) :
    (seat.move m).session.Quiet := by
  rcases hq with hs | ho
  · exact .inl ((stopping_move h m).mpr (.inl hs))
  · exact .inr ((isOver_move ho m).1 ▸ ho)

/-- **A quiet session does no more deeds, whatever happens.** -/
theorem silent_run {seat : Seat} (h : seat.session.Coherent) (hq : seat.session.Quiet)
    (ms : List Move) :
    (seat.run ms).deeds = seat.deeds ∧ Session.Wanes seat.session (seat.run ms).session := by
  induction ms generalizing seat with
  | nil => exact ⟨rfl, Session.wanes_of_eq rfl⟩
  | cons m ms ih =>
    obtain ⟨hdoes, hwanes⟩ := silent_does h hq m
    obtain ⟨hdeeds, hwanes'⟩ := ih (coherent_move seat m h) (quiet_move h hq m)
    refine ⟨?_, hwanes.trans hwanes'⟩
    rw [run_cons, hdeeds, deeds, effects_move, List.filter_append, hdoes, List.append_nil]
    rfl

theorem Follows.isOver {seat : Seat} {seen : List Occurrence} (h : seat.Follows seen)
    {o : Occurrence} (ho : o ∈ seen) (hfinal : o.isFinal = true) :
    seat.session.phase.isOver = true := by
  have htracks := h.tracks
  cases hp : seat.session.phase with
  | fresh => rw [(htracks.fresh hp).1] at ho; cases ho
  | connecting due => rw [(htracks.connecting hp).1] at ho; cases ho
  | running => rw [(htracks.running hp).2.1 o ho] at hfinal; cases hfinal
  | finished | crashed => rfl

theorem times_eq_count_deeds (seat : Seat) {e : Effect} (he : e.isDeed = true) :
    seat.times e = seat.deeds.count e :=
  (List.count_filter he).symm

/-- **A cancelled session stays silent.** Once a session was asked to stop, or has seen something
final, such as the end of its client's reports, it never calls its client again, whatever happens
from then on and in whatever order:

* its deeds are those that it has done before, so that it counts no more moves and chats;
* its routine, if it has one, can only stop its activities and drop its releases;
* if it has none, none is attached any more. -/
theorem cancelled_silent (start : Nat) (settings : SessionSettings) (pace : Option Pace)
    (script : Script) (ms : List Move)
    (h : .stop ∈ ms ∨ ∃ o ∈ (fresh start settings pace script).seen ms, o.isFinal = true)
    (ms' : List Move) :
    let seat := (fresh start settings pace script).run ms
    (seat.run ms').deeds = seat.deeds ∧
      (∀ e, e.isDeed = true → (seat.run ms').times e = seat.times e) ∧
      Session.Wanes seat.session (seat.run ms').session ∧
      (seat.session.routine = none → (seat.run ms').session.routine = none) := by
  intro seat
  have hrun := (follows_fresh start settings pace script).run ms
  have hquiet : seat.session.Quiet := by
    rcases h with hstop | ⟨o, ho, hfinal⟩
    · exact .inl ((stopping_run (coherent_fresh start settings pace script) ms).mpr (.inr hstop))
    · exact .inr (hrun.isOver (by simpa using ho) hfinal)
  obtain ⟨hdeeds, hwanes⟩ := silent_run hrun.coherent hquiet ms'
  refine ⟨hdeeds, fun e he => ?_, hwanes, fun hnone => ?_⟩
  · rw [times_eq_count_deeds _ he, times_eq_count_deeds _ he, hdeeds]
  · cases hr : (seat.run ms').session.routine with
    | none => rfl
    | some r' =>
      obtain ⟨r, hr, -⟩ := hwanes r' hr
      rw [hnone] at hr
      cases hr

/-- A bot that is stopped with a chat tick due and `forward` held. -/
theorem silent_while_due :
    let seat := (fresh 0 ⟨"Bot1", ⟨"localhost", 25565, "1.21.4"⟩⟩ (some ⟨1, 9, 1⟩)
      { responses := { sight := .at default }, events := [(0, .spawn)] }).run
        [.act .steady .work, .act .steady .work, .act .steady .report, .act .steady .work, .pass 1,
          .act .steady (.routine .move), .stop]
    seat.deeds.length = 3 ∧ seat.session.ready (.routine .chat) = true ∧
      (seat.run [.act .steady (.routine .chat), .pass 9, .act .steady (.routine (.release 0)),
        .act .steady .work]).deeds = seat.deeds :=
  ⟨by decide, by decide, (cancelled_silent 0 _ _ _ _ (.inl (by simp)) _).1⟩

end Seat

end BotFleet
