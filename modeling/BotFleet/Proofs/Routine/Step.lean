import BotFleet.Routine.Basic

/-!
# The steps of a routine

* `Effect.isDeed`, `Effect.isLog`: calls on a client and what counts them, and log lines;
* `Routine.Stepped`: what a step of a routine can come to;
* **`Routine.stepped`**, `Routine.step_of_not_ready`: a step that can be done comes to nothing else,
  and any other step to nothing;
* `Routine.Stepped.effects`, `Routine.Stepped.cancelled`: a routine does nothing but deeds and log
  lines, and nothing but log lines once it is cancelled.
-/

namespace BotFleet

namespace Effect

/-- A call on a client, or the counting of one. -/
def isDeed : Effect → Bool
  | .call _ | .count .moves | .count .chats => true
  | _ => false

/-- An effect that is nothing but a log line. -/
def isLog : Effect → Bool
  | .log .. => true
  | _ => false

theorem exists_of_isLog {e : Effect} (h : e.isLog = true) :
    ∃ level source message, e = .log level source message := by
  cases e <;> cases h
  exact ⟨_, _, _, rfl⟩

theorem not_isDeed_of_isLog {e : Effect} (h : e.isLog = true) : e.isDeed = false := by
  obtain ⟨_, _, _, rfl⟩ := exists_of_isLog h
  rfl

theorem filter_isDeed_of_isLog {es : List Effect} (h : ∀ e ∈ es, e.isLog = true) :
    es.filter isDeed = [] := by
  refine List.filter_eq_nil_iff.mpr fun e he => ?_
  rw [not_isDeed_of_isLog (h e he)]
  exact Bool.false_ne_true

end Effect

namespace Routine

variable {r : Routine} {c : Situation}

/-- What a step can come to that can be done: an activity or a release ends because the routine is
cancelled, a tick that is due takes place, or a release that is due. -/
inductive Stepped (r : Routine) (c : Situation) : Task → Routine → List Effect → Prop where
  | stoppedMoving (t : Ticker) : r.moving = .running t → c.cancelled = true →
      Stepped r c .move { r with moving := .stopped }
        [logLine .debug c "Movement task stopped"]
  | moved (t : Ticker) (moving : Activity) (releases : List Nat) (es : List Effect) :
      r.moving = .running t → c.cancelled = false → t.due ≤ c.now →
      (moving = .running (t.advance c.now) ∨ moving = .crashed) →
      (releases = r.releases ∨ releases = r.releases ++ [Clock.wake c.now r.moveDuration]) →
      (∀ e ∈ es, e.isDeed = true ∨ e.isLog = true) →
      Stepped r c .move { r with moving, releases } es
  | stoppedChatting (t : Ticker) : r.chatting = .running t → c.cancelled = true →
      Stepped r c .chat { r with chatting := .stopped } [logLine .debug c "Chat task stopped"]
  | chatted (t : Ticker) (chatting : Activity) (es : List Effect) :
      r.chatting = .running t → c.cancelled = false → t.due ≤ c.now →
      (chatting = .running (t.advance c.now) ∨ chatting = .crashed) →
      (∀ e ∈ es, e.isDeed = true ∨ e.isLog = true) →
      Stepped r c .chat { r with chatting } es
  | dropped (i due : Nat) : r.releases[i]? = some due → c.cancelled = true →
      Stepped r c (.release i) { r with releases := r.releases.eraseIdx i } []
  | released (i due : Nat) (es : List Effect) : r.releases[i]? = some due →
      c.cancelled = false → due ≤ c.now → (∀ e ∈ es, e.isDeed = true ∨ e.isLog = true) →
      Stepped r c (.release i) { r with releases := r.releases.eraseIdx i } es

theorem isLog_logLine (level : Level) (message : String) :
    (logLine level c message).isLog = true := rfl

theorem stepped_moveTick {t : Ticker} (hm : r.moving = .running t) (hc : c.cancelled = false)
    (hdue : t.due ≤ c.now) (draw : Draw) :
    Stepped r c .move ({ r with moving := .running (t.advance c.now) }.moveTick c draw).1
      ({ r with moving := .running (t.advance c.now) }.moveTick c draw).2 := by
  unfold moveTick
  cases c.responses.sight with
  | crash => exact .moved t .crashed r.releases [] hm hc hdue (.inr rfl) (.inl rfl) (by simp)
  | unknown =>
    exact .moved t _ r.releases _ hm hc hdue (.inl rfl) (.inl rfl) (by simp [isLog_logLine])
  | «at» p =>
    cases c.responses.look with
    | crash =>
      exact .moved t .crashed r.releases _ hm hc hdue (.inr rfl) (.inl rfl) (by simp [Effect.isDeed])
    | refused f =>
      exact .moved t _ r.releases _ hm hc hdue (.inl rfl) (.inl rfl)
        (by simp [Effect.isDeed, isLog_logLine])
    | done =>
      cases c.responses.engage with
      | crash =>
        exact .moved t .crashed r.releases _ hm hc hdue (.inr rfl) (.inl rfl)
          (by simp [Effect.isDeed])
      | refused f =>
        exact .moved t _ r.releases _ hm hc hdue (.inl rfl) (.inl rfl)
          (by simp [Effect.isDeed, isLog_logLine])
      | done =>
        exact .moved t _ _ _ hm hc hdue (.inl rfl) (.inr rfl) (by simp [Effect.isDeed])

theorem stepped_chatTick {t : Ticker} (hm : r.chatting = .running t) (hc : c.cancelled = false)
    (hdue : t.due ≤ c.now) (draw : Draw) :
    Stepped r c .chat ({ r with chatting := .running (t.advance c.now) }.chatTick c draw).1
      ({ r with chatting := .running (t.advance c.now) }.chatTick c draw).2 := by
  unfold chatTick
  cases c.responses.chat with
  | crash => exact .chatted t .crashed _ hm hc hdue (.inr rfl) (by simp [Effect.isDeed])
  | refused f =>
    exact .chatted t _ _ hm hc hdue (.inl rfl) (by simp [Effect.isDeed, isLog_logLine])
  | done => exact .chatted t _ _ hm hc hdue (.inl rfl) (by simp [Effect.isDeed])

theorem effects_release : ∀ e ∈ releaseEffects c, e.isDeed = true ∨ e.isLog = true := by
  unfold releaseEffects
  cases c.responses.release <;> simp [Effect.isDeed, isLog_logLine]

theorem exists_of_activityReady {a : Activity} (h : activityReady c a = true) :
    ∃ t, a = .running t ∧ (c.cancelled = false → t.due ≤ c.now) := by
  cases a with
  | running t =>
    refine ⟨t, rfl, fun hc => ?_⟩
    simpa [activityReady, hc] using h
  | _ => cases h

/-- **A step that can be done comes to nothing else.** -/
theorem stepped {task : Task} (h : r.ready c task = true) (draw : Draw) :
    Stepped r c task (r.step c draw task).1 (r.step c draw task).2 := by
  cases task with
  | move =>
    obtain ⟨t, hm, hdue⟩ := exists_of_activityReady h
    cases hc : c.cancelled with
    | true => simp only [step, hm, hc, if_true]; exact .stoppedMoving t hm hc
    | false =>
      simp only [step, hm, hc, Bool.false_eq_true, if_false, if_pos (hdue hc)]
      exact stepped_moveTick hm hc (hdue hc) draw
  | chat =>
    obtain ⟨t, hm, hdue⟩ := exists_of_activityReady h
    cases hc : c.cancelled with
    | true => simp only [step, hm, hc, if_true]; exact .stoppedChatting t hm hc
    | false =>
      simp only [step, hm, hc, Bool.false_eq_true, if_false, if_pos (hdue hc)]
      exact stepped_chatTick hm hc (hdue hc) draw
  | release i =>
    cases hi : r.releases[i]? with
    | none => simp [ready, hi] at h
    | some due =>
      simp only [ready, hi] at h
      cases hc : c.cancelled with
      | true => simp only [step, hi, hc, if_true]; exact .dropped i due hi hc
      | false =>
        have hdue : due ≤ c.now := by simpa [hc] using h
        simp only [step, hi, hc, Bool.false_eq_true, if_false, if_pos hdue]
        exact .released i due _ hi hc hdue effects_release

theorem step_of_not_ready {task : Task} (h : r.ready c task = false) (draw : Draw) :
    r.step c draw task = (r, []) := by
  -- an activity that is not ready does not run, or is neither cancelled nor due
  have hidle {a : Activity} (ha : activityReady c a = false) {t : Ticker} (ht : a = .running t) :
      ¬c.cancelled = true ∧ ¬t.due ≤ c.now := by
    rw [ht, activityReady, Bool.or_eq_false_iff] at ha
    simpa using ha
  cases task with
  | move =>
    cases hm : r.moving with
    | running t =>
      obtain ⟨hc, hdue⟩ := hidle h hm
      simp only [step, hm, if_neg hc, if_neg hdue]
    | _ => simp only [step, hm]
  | chat =>
    cases hm : r.chatting with
    | running t =>
      obtain ⟨hc, hdue⟩ := hidle h hm
      simp only [step, hm, if_neg hc, if_neg hdue]
    | _ => simp only [step, hm]
  | release i =>
    cases hi : r.releases[i]? with
    | none => simp only [step, hi]
    | some due =>
      obtain ⟨hc, hdue⟩ : ¬c.cancelled = true ∧ ¬due ≤ c.now := by simpa [ready, hi] using h
      simp only [step, hi, if_neg hc, if_neg hdue]

variable {task : Task} {r' : Routine} {es : List Effect}

theorem Stepped.effects (h : Stepped r c task r' es) :
    ∀ e ∈ es, e.isDeed = true ∨ e.isLog = true := by
  cases h with
  | stoppedMoving | stoppedChatting => simp [isLog_logLine]
  | dropped => simp
  | moved _ _ _ _ _ _ _ _ _ he => exact he
  | chatted _ _ _ _ _ _ _ he => exact he
  | released _ _ _ _ _ _ he => exact he

/-- A cancelled routine does nothing but note its end. -/
theorem Stepped.cancelled (h : Stepped r c task r' es) (hc : c.cancelled = true) :
    ∀ e ∈ es, e.isLog = true := by
  cases h with
  | stoppedMoving | stoppedChatting => simp [isLog_logLine]
  | dropped => simp
  | moved _ _ _ _ _ hc' | chatted _ _ _ _ hc' | released _ _ _ _ hc' => rw [hc] at hc'; cases hc'

theorem Stepped.end_of_movement (h : Stepped r c .move r' es) (hc : c.cancelled = true) :
    es = [logLine .debug c "Movement task stopped"] := by
  cases h with
  | stoppedMoving => rfl
  | moved _ _ _ _ _ hc' => rw [hc] at hc'; cases hc'

end Routine

end BotFleet
