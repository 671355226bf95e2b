import BotFleet.Proofs.Routine.Rest
import BotFleet.Proofs.Session.Work

/-!
# A session comes to rest

* `Session.AtRest`: nothing can be done at this instant;
* `Session.burden`: the most that can still be done;
* **`Session.burden_step`**: every step that can be done lowers it;
* `Session.steps`: some steps, one after the other;
* **`Session.settle_eq_steps`**: to do everything that can be done is to take some steps, and leaves
  the session at rest;
* `Session.wait_pos`: at rest all that is due lies ahead.
-/

namespace BotFleet

theorem exists_min?_le {waits : List Nat} {d : Nat} (h : d ∈ waits) :
    ∃ d', waits.min? = some d' ∧ d' ≤ d := by
  obtain ⟨d', hd'⟩ := Option.isSome_iff_exists.mp (List.isSome_min?_of_mem h)
  exact ⟨d', hd', (List.min?_eq_some_iff.mp hd').2 d h⟩

namespace Session

/-- Nothing can be done at this instant. -/
def AtRest (s : Session) : Prop := ∀ task, s.ready task = false

/-! ## What can still be done -/

/-- The most that the work of a session and its client's reports can still bring at an instant: a
report takes a step to arrive and one to be looked at. -/
def ownBurden (s : Session) : Nat :=
  match s.phase with
  | .fresh => 2 * (s.script.events.length + 1) + s.inbox.length + 3
  | .connecting _ => 2 * (s.script.events.length + 1) + s.inbox.length + 2
  | .running => 2 * s.feed.length + s.inbox.length + 1
  | _ => 0

/-- The most that the routine can still do; one that is still to be attached can only be stopped. -/
def routineBurden (s : Session) : Nat :=
  match s.routine with
  | some r => r.burden s.clock
  | none => 2

/-- The most that can still be done at an instant. -/
def burden (s : Session) : Nat := s.ownBurden + s.routineBurden

section Burden

variable {s : Session}

theorem ownBurden_of_fresh (hp : s.phase = .fresh) :
    s.ownBurden = 2 * (s.script.events.length + 1) + s.inbox.length + 3 := by
  rw [ownBurden, hp]

theorem ownBurden_of_connecting {due : Option Nat} (hp : s.phase = .connecting due) :
    s.ownBurden = 2 * (s.script.events.length + 1) + s.inbox.length + 2 := by
  rw [ownBurden, hp]

theorem ownBurden_of_running (hp : s.phase = .running) :
    s.ownBurden = 2 * s.feed.length + s.inbox.length + 1 := by
  rw [ownBurden, hp]

theorem routineBurden_of_none (hr : s.routine = none) : s.routineBurden = 2 := by
  rw [routineBurden, hr]

theorem stepsEnough_of_none (hr : s.routine = none) : s.stepsEnough =
    2 * (s.script.events.length + s.feed.length + s.inbox.length + 1) + 3 + 4 := by
  rw [stepsEnough, hr]

theorem burden_le_stepsEnough (h : s.Coherent) : s.burden ≤ s.stepsEnough := by
  have huntouched (hu : s.Untouched)
      (hown : s.ownBurden ≤ 2 * (s.script.events.length + 1) + s.inbox.length + 3) :
      s.burden ≤ s.stepsEnough := by
    rw [burden, routineBurden_of_none hu.routine, stepsEnough_of_none hu.routine]
    omega
  have hlight (hown : s.ownBurden ≤ 2 * s.feed.length + s.inbox.length + 1) :
      s.burden ≤ s.stepsEnough := by
    cases hr : s.routine with
    | none =>
      rw [burden, routineBurden_of_none hr, stepsEnough_of_none hr]
      omega
    | some r =>
      have hroutine := r.burden_le_stepsEnough s.clock
      rw [burden, routineBurden, stepsEnough, hr]
      simp only
      omega
  cases hp : s.phase with
  | fresh => exact huntouched (h.fresh hp) (Nat.le_of_eq (ownBurden_of_fresh hp))
  | connecting due =>
    have hown := ownBurden_of_connecting hp
    exact huntouched (h.connecting hp).1 (by omega)
  | running => exact hlight (Nat.le_of_eq (ownBurden_of_running hp))
  | finished | crashed => exact hlight (by rw [ownBurden, hp]; exact Nat.zero_le _)

theorem burden_of_look {s' : Session} (hp : s.phase = .running) {r : Report} {rest : List Report}
    (hi : s.inbox = r :: rest) (hp' : s'.phase = .running) (hf' : s'.feed = s.feed)
    (hi' : s'.inbox = rest) (hroutine : s'.routineBurden ≤ s.routineBurden) :
    s'.burden < s.burden := by
  rw [burden, burden, ownBurden_of_running hp, ownBurden_of_running hp', hf', hi', hi,
    List.length_cons]
  omega

theorem Worked.burden {s' : Session} {o? : Option Occurrence} {es : List Effect}
    (h : s.Coherent) (hr : s.ready .work = true) (hw : Worked s o? s' es) :
    s'.burden < s.burden := by
  cases hw with
  | idle hidle => rw [hr] at hidle; cases hidle
  | begun hp _ =>
    have hown := ownBurden_of_fresh hp
    exact Nat.add_lt_add_right (by rw [hown]; exact Nat.lt_succ_self _) _
  | stoppedEarly _ hp _ _ =>
    have hown := ownBurden_of_fresh hp
    exact Nat.add_lt_add_right (by rw [hown]; exact Nat.succ_pos _) _
  | stopped _ _ hp _ _ | refused _ _ _ _ hp _ _ _ | crashed _ _ _ hp _ _ =>
    have hown := ownBurden_of_connecting hp
    exact Nat.add_lt_add_right (by rw [hown]; exact Nat.succ_pos _) _
  | opened _ _ _ hp _ _ _ =>
    have hown := ownBurden_of_connecting hp
    have hown' : s.opened.ownBurden = _ := ownBurden_of_running rfl
    have hfeed : s.opened.feed.length ≤ s.script.events.length + 1 :=
      Script.length_schedule_le ..
    have hinbox : s.opened.inbox = s.inbox := rfl
    refine Nat.add_lt_add_right ?_ _
    rw [hown', hown, hinbox]
    omega
  | noted _ _ _ hp _ hi _ _ _ => exact burden_of_look hp hi hp rfl rfl (Nat.le_refl _)
  | spawned rest _ hp _ hi hsp _ =>
    refine burden_of_look hp hi hp rfl rfl ?_
    have hnone := (h.running hp).routine hsp
    rw [routineBurden_of_none hnone]
    simp only [routineBurden, Session.spawned, hnone, Option.or_none]
    cases s.pace with
    | none => exact Nat.le_refl 2
    | some pace => exact Routine.burden_attach_le pace s.clock
  | loggedIn _ _ hp _ hi _ _ => exact burden_of_look hp hi hp rfl rfl (Nat.le_refl _)
  | ended _ _ _ _ _ hp _ _ _ _ =>
    have hown := ownBurden_of_running hp
    exact Nat.add_lt_add_right (by rw [hown]; exact Nat.succ_pos _) _

/-- **Every step that can be done lowers what can still be done.** -/
theorem burden_step (h : s.Coherent) (draw : Draw) {task : Task} (hr : s.ready task = true) :
    (s.step draw task).1.burden < s.burden := by
  cases task with
  | work => exact (step_work h draw).burden h hr
  | report =>
    rcases step_report s draw with ⟨hidle, -⟩ | ⟨due, r, rest, hp, hf, -, hs⟩
    · rw [hr] at hidle; cases hidle
    · have hown := ownBurden_of_running hp
      rw [hf, List.length_cons] at hown
      have hown' : (s.step draw .report).1.ownBurden =
          2 * rest.length + (s.inbox ++ [r]).length + 1 := by
        rw [hs]
        exact ownBurden_of_running hp
      have hroutine : (s.step draw .report).1.routineBurden = s.routineBurden := by rw [hs]; rfl
      rw [burden, burden, hown', hown, hroutine, List.length_append, List.length_singleton]
      omega
  | routine task =>
    rcases step_routine s draw task with ⟨hidle, -⟩ | ⟨r, hroutine, hready, hs⟩
    · rw [hr] at hidle; cases hidle
    · have hstep := (Routine.stepped hready draw).burden
      rw [hs]
      refine Nat.add_lt_add_left ?_ s.ownBurden
      simp only [routineBurden, hroutine]
      exact hstep

end Burden

/-! ## The schedule -/

section Schedule

variable {s : Session} {task : Task}

theorem ready_of_firstReady (h : s.firstReady = some task) : s.ready task = true := by
  unfold firstReady at h
  split at h
  · cases h; assumption
  split at h
  · cases h; assumption
  obtain ⟨t, ht, rfl⟩ := Option.map_eq_some_iff.mp h
  obtain ⟨r, hr, hfirst⟩ := Option.bind_eq_some_iff.mp ht
  rw [ready, hr]
  exact Routine.ready_of_firstReady hfirst

theorem atRest_of_firstReady (h : s.firstReady = none) : s.AtRest := by
  unfold firstReady at h
  split at h
  · cases h
  split at h
  · cases h
  rename_i hwork hreport
  intro task
  cases task with
  | work => exact Bool.not_eq_true _ ▸ hwork
  | report => exact Bool.not_eq_true _ ▸ hreport
  | routine task =>
    cases hr : s.routine with
    | none => rw [ready, hr]; rfl
    | some r =>
      rw [hr] at h
      rw [ready, hr]
      exact Routine.not_ready_of_firstReady (Option.map_eq_none_iff.mp h) task

/-- Some steps, one after the other, with all their effects. -/
def steps (s : Session) (draw : Draw) : List Task → Session × List Effect
  | [] => (s, [])
  | task :: tasks =>
    let result := s.step draw task
    let later := result.1.steps draw tasks
    (later.1, result.2 ++ later.2)

/-- Steps as long as something can be done, until there is nothing left to do. -/
theorem settleIn_eq_steps (draw : Draw) {fuel : Nat} (h : s.Coherent) (hfuel : s.burden ≤ fuel)
    (es : List Effect) : ∃ tasks, (s.steps draw tasks).1.AtRest ∧
      settleIn draw fuel s es = ((s.steps draw tasks).1, es ++ (s.steps draw tasks).2) := by
  induction fuel generalizing s es with
  | zero =>
    refine ⟨[], fun task => ?_, by rw [settleIn, steps, List.append_nil]⟩
    cases hr : s.ready task with
    | false => exact hr
    | true =>
      have hlt := burden_step h draw hr
      omega
  | succ fuel ih =>
    cases hf : s.firstReady with
    | none =>
      refine ⟨[], atRest_of_firstReady hf, ?_⟩
      rw [settleIn, hf, steps, List.append_nil]
    | some task =>
      have hlt := burden_step h draw (ready_of_firstReady hf)
      obtain ⟨tasks, hrest, htasks⟩ :=
        ih (coherent_step h draw task) (by omega) (es ++ (s.step draw task).2)
      refine ⟨task :: tasks, hrest, ?_⟩
      rw [settleIn, hf]
      simp only
      rw [htasks, List.append_assoc]
      rfl

/-- **To do everything that can be done is to take some steps, and leaves the session at rest.** -/
theorem settle_eq_steps (h : s.Coherent) (draw : Draw) :
    ∃ tasks, (s.steps draw tasks).1.AtRest ∧ s.settle draw = s.steps draw tasks := by
  obtain ⟨tasks, hrest, htasks⟩ := settleIn_eq_steps draw h (burden_le_stepsEnough h) []
  exact ⟨tasks, hrest, by rw [settle, htasks, List.nil_append]⟩

end Schedule

/-! ## Waiting -/

theorem wait_cases {s : Session} {d : Nat} (hd : s.wait? = some d) :
    (∃ due, s.phase = .connecting (some due) ∧ d = due - s.clock) ∨
      (∃ x rest, s.phase = .running ∧ s.feed = x :: rest ∧ d = x.1 - s.clock) ∨
      ∃ r, s.routine = some r ∧ r.wait? s.clock = some d := by
  have hmem := List.min?_mem hd
  rcases List.mem_append.mp hmem with hown | hroutine
  · split at hown
    · rename_i due hp
      exact .inl ⟨due, hp, List.mem_singleton.mp hown⟩
    · rename_i hp
      obtain ⟨x, hx, rfl⟩ := Option.map_eq_some_iff.mp (Option.mem_toList.mp hown)
      obtain ⟨rest, hrest⟩ := List.head?_eq_some_iff.mp hx
      exact .inr (.inl ⟨x, rest, hp, hrest, rfl⟩)
    · cases hown
  · obtain ⟨r, hr, hwait⟩ := Option.bind_eq_some_iff.mp (Option.mem_toList.mp hroutine)
    exact .inr (.inr ⟨r, hr, hwait⟩)

theorem wait_pos {s : Session} (h : s.AtRest) {d : Nat} (hd : s.wait? = some d) : 0 < d := by
  rcases wait_cases hd with ⟨due, hp, rfl⟩ | ⟨x, rest, hp, hf, rfl⟩ | ⟨r, hr, hwait⟩
  · have hwork := h .work
    rw [ready_of_connecting hp, Bool.or_eq_false_iff] at hwork
    exact Nat.sub_pos_of_lt (by simpa using hwork.2)
  · have hreport := h .report
    exact Nat.sub_pos_of_lt (by simpa [ready, hp, hf] using hreport)
  · refine Routine.wait_pos (c := s.situation) (fun task => ?_) hwait
    have hroutine := h (.routine task)
    rw [ready, hr] at hroutine
    exact hroutine

end Session

end BotFleet
