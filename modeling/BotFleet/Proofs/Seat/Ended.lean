import BotFleet.Proofs.Seat.Count
import BotFleet.Proofs.Seat.Login

/-!
# What is seen of a session that is over

* `Session.Coherent.isTerminated_iff`: a session is seen as terminated exactly if it has finished;
* `Session.Worked.count_logins`: a login is counted when it is seen for the first time;
* `Seat.Reckons`: what a session has seen, and whether it has counted a login or crashed;
* **`Seat.Reckons.move`**: it counts a login exactly if that is its verdict, whatever happens;
* **`Seat.Reckons.seenOver`**, **`Seat.Reckons.unseen`**: a session that has finished is seen to be
  over, and one that has crashed is not.
-/

namespace BotFleet

namespace Session

variable {s : Session}

theorem Coherent.isTerminated_iff (h : s.Coherent) :
    s.isTerminated = true ↔ s.phase = .finished := by
  rw [isTerminated, decide_eq_true_iff]
  cases hp : s.phase with
  | fresh => simp [(h.fresh hp).published]
  | connecting due => simp [(h.connecting hp).1.published]
  | running => simp [(h.running hp).published, (h.running hp).stage]
  | finished => simp [(h.finished hp).published]
  | crashed message => simp [(h.crashed hp).published]

/-- **A login is counted when it is seen for the first time.** -/
theorem Worked.count_logins {s' : Session} {o? : Option Occurrence} {es : List Effect}
    (h : s.Coherent) (hw : Worked s o? s' es) : es.count (.count .logins) =
      if o? = some (.report (.event .login)) ∧ s.settlement.settled = false then 1 else 0 := by
  cases hw with
  | idle | begun | crashed => rfl
  | stoppedEarly _ _ _ hl | stopped _ _ _ _ hl | refused _ _ _ _ _ _ _ hl | opened _ _ _ _ _ _ hl =>
    obtain ⟨_, _, _, rfl⟩ := Effect.exists_of_isLog hl
    rfl
  | noted e _ _ hp _ _ _ hlogin hl =>
    have hquiet : ¬(some (Occurrence.report (.event e)) = some (.report (.event .login)) ∧
        s.settlement.settled = false) := by
      rintro ⟨he, hs⟩
      cases he
      rw [(h.running hp).settled.mpr (hlogin rfl)] at hs
      cases hs
    obtain ⟨_, _, _, rfl⟩ := Effect.exists_of_isLog hl
    rw [if_neg hquiet]
    rfl
  | spawned _ lines _ _ _ _ hl =>
    rw [if_neg (by simp), List.count_eq_zero]
    intro hmem
    cases hl _ hmem
  | loggedIn _ _ hp _ _ hstage hl =>
    have hopen : s.settlement.settled = false := by simpa [hstage] using (h.running hp).settled
    obtain ⟨_, _, _, rfl⟩ := Effect.exists_of_isLog hl
    rw [Settlement.first_settle, hopen]
    rfl
  | ended o _ e _ _ _ _ hv hl hl' =>
    have hquiet : ¬(some o = some (.report (.event .login)) ∧ s.settlement.settled = false) := by
      rintro ⟨ho, -⟩
      cases ho
      cases hv
    obtain ⟨_, _, _, rfl⟩ := Effect.exists_of_isLog hl
    obtain ⟨_, _, _, rfl⟩ := Effect.exists_of_isLog hl'
    rw [if_neg hquiet]
    split <;> rfl

/-- A session that has crashed has done so while connecting. -/
def CrashedOpening (s : Session) : Prop :=
  ∀ message, s.phase = .crashed message → ∃ delay, s.script.opening = some (delay, .crashed message)

theorem Worked.crashedOpening {s' : Session} {o? : Option Occurrence} {es : List Effect}
    (hw : Worked s o? s' es) (h : s.CrashedOpening) : s'.CrashedOpening := by
  intro message hp'
  cases hw with
  | idle => exact h message hp'
  | crashed _ delay _ _ _ ho => cases hp'; exact ⟨delay, ho⟩
  | noted _ _ _ hp | spawned _ _ hp | loggedIn _ _ hp => cases hp.symm.trans hp'
  | begun | stoppedEarly | stopped | refused | opened | ended => cases hp'

theorem Alike.crashedOpening {s' : Session} (a : Alike s s') (h : s.CrashedOpening) :
    s'.CrashedOpening := by
  intro message hp'
  rw [a.script]
  exact h message (a.phase ▸ hp')

end Session

namespace Seat

/-- What a session has seen, and whether it has counted a login or crashed. -/
structure Reckons (seat : Seat) (seen : List Occurrence) : Prop where
  follows : seat.Follows seen
  counted : seat.Counted
  crashed : seat.session.CrashedOpening
  logins : seat.times (.count .logins) = if firstVerdict seen = some .success then 1 else 0

section Reckons

variable {seat : Seat} {seen : List Occurrence}

theorem reckons_fresh (start : Nat) (settings : SessionSettings) (pace : Option Pace)
    (script : Script) : (fresh start settings pace script).Reckons [] :=
  ⟨follows_fresh .., counted_fresh .., by simp [Session.CrashedOpening, fresh, Session.start], rfl⟩

theorem verdict_eq_success_iff (o : Occurrence) :
    o.verdict? = some .success ↔ o = .report (.event .login) := by
  unfold Occurrence.verdict?
  split <;> simp

theorem firstVerdict_snoc_eq_success_iff (seen : List Occurrence) (o : Occurrence) :
    firstVerdict (seen ++ [o]) = some .success ↔ firstVerdict seen = some .success ∨
      firstVerdict seen = none ∧ o = .report (.event .login) := by
  rw [firstVerdict_snoc, ← verdict_eq_success_iff]
  cases firstVerdict seen <;> simp

theorem Reckons.unsettled_iff (h : seat.Reckons seen)
    (ho : seat.session.sight? = some (.report (.event .login))) :
    seat.session.settlement.settled = false ↔ firstVerdict seen = none := by
  refine ⟨fun hs => ?_, fun hv => (hv ▸ h.follows.delivery).settled_of_none⟩
  refine h.follows.firstVerdict_of_unsettled ?_ hs
  unfold Session.sight? at ho
  cases hp : seat.session.phase with
  | running => rfl
  | connecting due =>
    have hno := (Option.ite_none_right_eq_some.mp ho).2
    simp only [hp] at hno
    split at hno <;> simp at hno
  | _ => simp [hp] at ho

/-- **A step of the work counts a login exactly if that becomes the verdict.** -/
theorem Reckons.work (h : seat.Reckons seen) (draw : Draw) :
    (seat.move (.act draw .work)).times (.count .logins) =
      if firstVerdict (seen ++ seat.session.sight?.toList) = some .success then 1 else 0 := by
  have hcount : (seat.does (.act draw .work)).count (.count .logins) = _ :=
    (Session.step_work h.follows.coherent draw).count_logins h.follows.coherent
  rw [times_move, h.logins, hcount]
  cases ho : seat.session.sight? with
  | none => simp
  | some o =>
    simp only [Option.some.injEq, Option.toList_some, firstVerdict_snoc_eq_success_iff]
    by_cases hlogin : o = .report (.event .login)
    · subst hlogin
      simp only [h.unsettled_iff ho, true_and, and_true]
      cases firstVerdict seen <;> simp
    · simp [hlogin]

theorem count_logins_does (seat : Seat) {m : Move} (hm : ∀ draw, m ≠ .act draw .work) :
    (seat.does m).count (.count .logins) = 0 := by
  have hquiet {es : List Effect} (hes : ∀ e ∈ es, e.isDeed = true ∨ e.isLog = true) :
      es.count (.count .logins) = 0 :=
    List.count_eq_zero.mpr fun hmem => by simpa [Effect.isDeed, Effect.isLog] using hes _ hmem
  cases m with
  | act draw task =>
    cases task with
    | work => exact absurd rfl (hm draw)
    | report => rw [does, Session.effects_report]; rfl
    | routine task => exact hquiet (Session.effects_routine seat.session draw task)
  | _ => rfl

theorem Reckons.crashedOpening_move (h : seat.Reckons seen) (m : Move) :
    (seat.move m).session.CrashedOpening := by
  cases m with
  | act draw task =>
    cases task with
    | work => exact (Session.step_work h.follows.coherent draw).crashedOpening h.crashed
    | report => exact (Session.alike_report draw).crashedOpening h.crashed
    | routine task => exact (Session.alike_routine draw task).crashedOpening h.crashed
  | _ => exact (seat.alike_move (by simp)).crashedOpening h.crashed

/-- **A session counts a login exactly if that is its verdict, whatever happens.** -/
theorem Reckons.move (h : seat.Reckons seen) (m : Move) :
    (seat.move m).Reckons (seen ++ seat.sees m) := by
  refine ⟨h.follows.move m, h.counted.move m, h.crashedOpening_move m, ?_⟩
  by_cases hm : ∃ draw, m = .act draw .work
  · obtain ⟨draw, rfl⟩ := hm
    exact h.work draw
  · have hm : ∀ draw, m ≠ .act draw .work := not_exists.mp hm
    rw [times_move, seat.count_logins_does hm, seat.sees_eq_nil hm, List.append_nil]
    exact h.logins

theorem Reckons.run (h : seat.Reckons seen) (ms : List Move) :
    (seat.run ms).Reckons (seen ++ seat.seen ms) := by
  induction ms generalizing seat seen with
  | nil => rw [Seat.seen, List.append_nil]; exact h
  | cons m ms ih =>
    rw [Seat.seen, ← List.append_assoc]
    exact ih (h.move m)

/-! ## Sessions that are over -/

/-- A session that is seen to be over: it is terminated, its login has an outcome, and it has counted
a failure once if that is one. -/
structure SeenOver (seat : Seat) : Prop where
  terminated : seat.session.isTerminated = true
  answered : ∃ v, seat.answer = some v
  failures : seat.times (.count .failures) = if seat.answer = some .success then 0 else 1

/-- A session that is over and not seen to be: it is not terminated, and its login has failed without
being counted. -/
structure Unseen (seat : Seat) : Prop where
  terminated : seat.session.isTerminated = false
  answer : seat.answer = some LoginHandle.endedEarly
  failures : seat.times (.count .failures) = 0

theorem Reckons.failures_of_settled (h : seat.Reckons seen)
    (hs : seat.session.settlement.settled = true) :
    seat.times (.count .failures) = if seat.answer = some .success then 0 else 1 := by
  have hsum := h.counted.settled
  rw [hs, h.logins, ← h.follows.answer_eq] at hsum
  by_cases hv : seat.answer = some .success
  · rw [if_pos hv] at hsum ⊢
    exact Nat.add_left_cancel hsum
  · rw [if_neg hv, Nat.zero_add] at hsum
    rw [if_neg hv]
    exact hsum

theorem Reckons.failures_of_unsettled (h : seat.Reckons seen)
    (hs : seat.session.settlement.settled = false) : seat.times (.count .failures) = 0 := by
  have hsum := h.counted.settled
  rw [hs] at hsum
  exact (Nat.add_eq_zero_iff.mp hsum).2

/-- **A session that has finished is seen to be over.** -/
theorem Reckons.seenOver (h : seat.Reckons seen) (hp : seat.session.phase = .finished) :
    seat.SeenOver := by
  have hs := (h.follows.coherent.finished hp).settled
  refine ⟨h.follows.coherent.isTerminated_iff.mpr hp, ?_, h.failures_of_settled hs⟩
  rw [h.follows.answer_eq]
  exact h.follows.firstVerdict_of_settled hs

/-- **A session that has crashed is not.** -/
theorem Reckons.unseen (h : seat.Reckons seen) {message : String}
    (hp : seat.session.phase = .crashed message) : seat.Unseen := by
  have hu := h.follows.coherent.crashed hp
  have hdecided := h.follows.decided (by rw [hp]; rfl)
  refine ⟨by simp [Session.isTerminated, hu.published], ?_, h.failures_of_unsettled hu.unsettled⟩
  rw [h.follows.answer_eq]
  exact (h.follows.delivery.of_unsettled hu.unsettled).resolve_left hdecided

/-- A session has counted a failure exactly if it has finished with one. -/
theorem Reckons.failures_eq (h : seat.Reckons seen) : seat.times (.count .failures) =
    if seat.session.phase = .finished ∧ seat.answer ≠ some .success then 1 else 0 := by
  cases hp : seat.session.phase with
  | finished =>
    rw [(h.seenOver hp).failures]
    by_cases hv : seat.answer = some .success <;> simp [hv]
  | running =>
    rw [if_neg (by simp)]
    cases hs : seat.session.settlement.settled with
    | false => exact h.failures_of_unsettled hs
    | true =>
      -- nothing final has been seen, so that the verdict can only be a success
      obtain ⟨v, hv⟩ := h.follows.firstVerdict_of_settled hs
      obtain rfl := firstVerdict_of_open (h.follows.tracks.running hp).2.1 hv
      rw [h.failures_of_settled hs, h.follows.answer_eq, hv, if_pos rfl]
  | fresh => exact h.failures_of_unsettled (h.follows.coherent.fresh hp).unsettled
  | connecting due => exact h.failures_of_unsettled (h.follows.coherent.connecting hp).1.unsettled
  | crashed message => exact (h.unseen hp).failures

end Reckons

end Seat

end BotFleet
