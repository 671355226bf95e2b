import BotFleet.Proofs.Seat.Run
import BotFleet.Proofs.Session.Rest
import BotFleet.Proofs.Session.Seen

/-!
# The first decisive occurrence decides the login

* `Seat.Follows`: a session that has seen some occurrences, and the verdict that is on its way to its
  owner;
* **`Seat.follows_run`**: a run keeps up with what is seen during it;
* `Seat.seen_of_isOver`, `Seat.seen_of_stopping`: a session that is over sees nothing, and one that
  was asked to stop sees nothing else;
* `Session.Awaits`: all that a session has not seen is still to come;
* **`Seat.login_first_decisive`**: the answer to the owner is the verdict of the first decisive
  occurrence.
-/

namespace BotFleet

namespace Seat

/-- A session that has seen some occurrences. The verdict of the first decisive one is on its way to
the owner. -/
structure Follows (seat : Seat) (seen : List Occurrence) : Prop where
  coherent : seat.session.Coherent
  tracks : seat.session.Tracks seen
  delivery : Delivery seat.handle seat.session.settlement (firstVerdict seen)

section Follows

variable {seat : Seat} {seen : List Occurrence}

theorem follows_fresh (start : Nat) (settings : SessionSettings) (pace : Option Pace)
    (script : Script) : (fresh start settings pace script).Follows [] :=
  ⟨coherent_fresh .., ⟨rfl, rfl⟩, .waiting⟩

theorem Follows.firstVerdict_of_unsettled (h : seat.Follows seen) (hp : seat.session.phase = .running)
    (hs : seat.session.settlement.settled = false) : firstVerdict seen = none := by
  have hd := h.delivery
  cases hv : firstVerdict seen with
  | none => rfl
  | some v =>
    rw [hv, firstVerdict_of_open (h.tracks.running hp).2.1 hv] at hd
    rw [hd.settled_of_success] at hs
    cases hs

theorem Follows.firstVerdict_of_settled (h : seat.Follows seen)
    (hs : seat.session.settlement.settled = true) : ∃ v, firstVerdict seen = some v := by
  cases hv : firstVerdict seen with
  | none =>
    have hunsettled := (hv ▸ h.delivery).settled_of_none
    rw [hs] at hunsettled
    cases hunsettled
  | some v => exact ⟨v, rfl⟩

theorem Follows.delivery_of_settled (h : seat.Follows seen)
    (hs : seat.session.settlement.settled = true) (o : Occurrence) :
    Delivery seat.handle seat.session.settlement (firstVerdict (seen ++ [o])) := by
  obtain ⟨v, hv⟩ := h.firstVerdict_of_settled hs
  rw [firstVerdict_append_of_some hv, ← hv]
  exact h.delivery

theorem Follows.delivery_settle (h : seat.Follows seen) (hopen : firstVerdict seen = none)
    {o : Occurrence} {v : Verdict} (ho : o.verdict? = some v) :
    Delivery seat.handle (seat.session.settlement.settle v).1 (firstVerdict (seen ++ [o])) := by
  rw [firstVerdict_snoc, hopen, Option.none_or, ho]
  exact (hopen ▸ h.delivery).settle v

/-- **A step of the work sends the verdict of the first decisive occurrence on its way.** -/
theorem Follows.delivery_work (h : seat.Follows seen) {s' : Session} {o? : Option Occurrence}
    {es : List Effect} (hw : Session.Worked seat.session o? s' es) :
    Delivery seat.handle s'.settlement (firstVerdict (seen ++ o?.toList)) := by
  have hnone (hseen : seen = [] ∧ seat.session.inbox = []) : firstVerdict seen = none := by
    rw [hseen.1]; rfl
  cases hw with
  | idle _ => rw [Option.toList_none, List.append_nil]; exact h.delivery
  | begun _ _ => rw [Option.toList_none, List.append_nil]; exact h.delivery
  | stoppedEarly _ hp _ _ => exact h.delivery_settle (hnone (h.tracks.fresh hp)) rfl
  | stopped _ _ hp _ _ => exact h.delivery_settle (hnone (h.tracks.connecting hp)) rfl
  | refused _ _ _ _ hp _ _ _ => exact h.delivery_settle (hnone (h.tracks.connecting hp)) rfl
  | crashed _ _ _ hp _ _ =>
    have hn := hnone (h.tracks.connecting hp)
    rw [Option.toList_some, firstVerdict_snoc, hn, Option.none_or]
    exact (hn ▸ h.delivery).abandon
  | opened _ _ _ _ _ _ _ =>
    rw [Option.toList_some, firstVerdict_snoc, Occurrence.verdict?, Option.or_none]
    exact h.delivery
  | noted e _ _ hp _ _ hr hlogin _ =>
    by_cases he : e = .login
    · exact h.delivery_of_settled ((h.coherent.running hp).settled.mpr (hlogin he)) _
    · have hv : (Occurrence.report (.event e)).verdict? = none := by
        cases e <;> simp_all [Occurrence.isFinal, Occurrence.verdict?, Verdict.isSuccess]
      rw [Option.toList_some, firstVerdict_snoc, hv, Option.or_none]
      exact h.delivery
  | spawned _ _ _ _ _ _ _ =>
    rw [Option.toList_some, firstVerdict_snoc, Occurrence.verdict?, Option.or_none]
    exact h.delivery
  | loggedIn _ _ hp _ _ hl _ =>
    have hs : seat.session.settlement.settled = false := by
      simpa [hl] using (h.coherent.running hp).settled
    exact h.delivery_settle (h.firstVerdict_of_unsettled hp hs) rfl
  | ended o _ _ _ _ hp _ hv _ _ =>
    cases hs : seat.session.settlement.settled with
    | false => exact h.delivery_settle (h.firstVerdict_of_unsettled hp hs) hv
    | true =>
      have hd := h.delivery_of_settled hs o
      exact hd.settle_again hs _

theorem sees_eq_nil (seat : Seat) {m : Move} (hm : ∀ draw, m ≠ .act draw .work) :
    seat.sees m = [] := by
  unfold sees
  split
  · exact absurd rfl (hm _)
  · rfl

theorem Follows.other_move (h : seat.Follows seen) {m : Move} (hm : ∀ draw, m ≠ .act draw .work) :
    (seat.move m).Follows seen := by
  have hc := coherent_move seat m h.coherent
  cases m with
  | act draw task =>
    cases task with
    | work => exact absurd rfl (hm draw)
    | report =>
      refine ⟨hc, h.tracks.report draw, ?_⟩
      rcases Session.step_report seat.session draw with ⟨-, hs⟩ | ⟨_, _, _, -, -, -, hs⟩ <;>
        rw [Seat.move, hs] <;> exact h.delivery
    | routine task =>
      refine ⟨hc, h.tracks.routine draw task, ?_⟩
      rcases Session.step_routine seat.session draw task with ⟨-, hs⟩ | ⟨_, -, -, hs⟩ <;>
        rw [Seat.move, hs] <;> exact h.delivery
  | stop => exact ⟨hc, h.tracks.congr rfl rfl rfl rfl fun _ => rfl, h.delivery⟩
  | change responses =>
    rw [Seat.move, Session.change] at hc ⊢
    split at hc
    · rename_i hw
      rw [if_pos hw]
      exact ⟨hc, h.tracks.congr rfl rfl rfl rfl id, h.delivery⟩
    · rename_i hw
      rw [if_neg hw]
      exact h
  | ask => exact ⟨hc, h.tracks.congr rfl rfl rfl rfl id, h.delivery.poll⟩
  | pass ms => exact ⟨hc, h.tracks.congr rfl rfl rfl rfl id, h.delivery⟩

/-- **A move keeps up with what is seen in it.** -/
theorem Follows.move (h : seat.Follows seen) (m : Move) :
    (seat.move m).Follows (seen ++ seat.sees m) := by
  by_cases hm : ∃ draw, m = .act draw .work
  · obtain ⟨draw, rfl⟩ := hm
    have hw := Session.step_work h.coherent draw
    exact ⟨coherent_move seat _ h.coherent, h.tracks.work hw, h.delivery_work hw⟩
  · have hm : ∀ draw, m ≠ .act draw .work := not_exists.mp hm
    rw [seat.sees_eq_nil hm, List.append_nil]
    exact h.other_move hm

/-- **A run keeps up with what is seen during it.** -/
theorem Follows.run (h : seat.Follows seen) (ms : List Move) :
    (seat.run ms).Follows (seen ++ seat.seen ms) := by
  induction ms generalizing seat seen with
  | nil => rw [Seat.seen, List.append_nil]; exact h
  | cons m ms ih =>
    rw [Seat.seen, ← List.append_assoc]
    exact ih (h.move m)

theorem Follows.answer_eq (h : seat.Follows seen) : seat.answer = firstVerdict seen :=
  h.delivery.answer_eq

theorem Follows.answer_run (h : seat.Follows seen) {v : Verdict} (hv : seat.answer = some v)
    (ms : List Move) : (seat.run ms).answer = some v := by
  rw [(h.run ms).answer_eq]
  exact firstVerdict_append_of_some (h.answer_eq ▸ hv) _

end Follows

/-! ## A request to stop -/

theorem isOver_move {seat : Seat} (hover : seat.session.phase.isOver = true) (m : Move) :
    (seat.move m).session.phase = seat.session.phase ∧ seat.sees m = [] := by
  have hr := Session.not_ready_of_isOver hover
  by_cases hm : ∃ draw, m = .act draw .work
  · obtain ⟨draw, rfl⟩ := hm
    have hstep : seat.session.step draw .work = (seat.session, []) := by
      simp [Session.step, hr]
    rw [move, hstep, sees, Session.sight?_of_idle hr]
    exact ⟨rfl, rfl⟩
  · have hm : ∀ draw, m ≠ .act draw .work := not_exists.mp hm
    refine ⟨?_, seat.sees_eq_nil hm⟩
    cases m with
    | act draw task =>
      cases task with
      | work => exact absurd rfl (hm draw)
      | report => exact (Session.alike_report draw).phase
      | routine task => exact (Session.alike_routine draw task).phase
    | _ => exact (seat.alike_move (by simp)).phase

theorem seen_of_isOver {seat : Seat} (hover : seat.session.phase.isOver = true)
    (ms : List Move) : seat.seen ms = [] := by
  induction ms generalizing seat with
  | nil => rfl
  | cons m ms ih =>
    obtain ⟨hphase, hsees⟩ := isOver_move hover m
    rw [seen, hsees, ih (by rwa [hphase])]
    rfl

theorem isOver_of_sight {s s' : Session} {es : List Effect}
    (hw : Session.Worked s (some .stop) s' es) : s'.phase.isOver = true := by
  cases hw <;> rfl

/-- **A session that was asked to stop sees nothing but that.** -/
theorem seen_of_stopping {seat : Seat} (h : seat.session.Coherent)
    (hs : seat.session.stopping = true) (ms : List Move) :
    seat.seen ms = [] ∨ seat.seen ms = [.stop] := by
  induction ms generalizing seat with
  | nil => exact .inl rfl
  | cons m ms ih =>
    have hc := coherent_move seat m h
    have ih := ih hc ((stopping_move h m).mpr (.inl hs))
    by_cases hm : ∃ draw, m = .act draw .work
    · obtain ⟨draw, rfl⟩ := hm
      cases hr : seat.session.ready .work with
      | false => rw [seen, sees, Session.sight?_of_idle hr]; exact ih
      | true =>
        have hsight := Session.sight?_of_stopping hr hs
        have hw := Session.step_work h draw
        rw [hsight] at hw
        rw [seen, sees, hsight, seen_of_isOver (isOver_of_sight hw)]
        exact .inr rfl
    · rw [seen, seat.sees_eq_nil (not_exists.mp hm)]
      exact ih

end Seat

/-! ## Rest -/

namespace Session

/-- All that a session has not seen is still to come: connecting takes longer, or the reports that
are left lie ahead. -/
def Awaits (s : Session) (seen : List Occurrence) : Prop :=
  (∃ due, s.phase = .connecting due ∧ ∀ t ∈ due, s.clock < t) ∨
    s.phase = .running ∧ seen ++ s.feed.map (fun r => .report r.2) = s.script.occurrences ∧
      ∀ r ∈ s.feed, s.clock < r.1

theorem AtRest.ahead {s : Session} (h : s.AtRest) (hp : s.phase = .running)
    (hsorted : s.feed.Pairwise fun r r' => r.1 ≤ r'.1) : ∀ r ∈ s.feed, s.clock < r.1 := by
  have hready := h .report
  cases hf : s.feed with
  | nil => simp
  | cons x rest =>
    rw [hf] at hsorted
    have hx : s.clock < x.1 := by simpa [ready, hp, hf] using hready
    intro r hr
    rcases List.mem_cons.mp hr with rfl | hr
    · exact hx
    · exact Nat.lt_of_lt_of_le hx ((List.pairwise_cons.mp hsorted).1 r hr)

end Session

namespace Seat

/-- A session that is over has seen something decisive. -/
theorem Follows.decided {seat : Seat} {seen : List Occurrence} (h : seat.Follows seen)
    (hover : seat.session.phase.isOver = true) : firstVerdict seen ≠ none := by
  intro hnone
  have htracks := h.tracks
  unfold Session.Tracks at htracks
  cases hp : seat.session.phase with
  | finished | crashed =>
    rw [hp] at htracks
    obtain ⟨before, o, -, rfl, hfinal, -⟩ := htracks
    rw [firstVerdict_snoc, Option.or_eq_none_iff] at hnone
    simp [Occurrence.isFinal, hnone.2] at hfinal
  | _ => rw [hp] at hover; cases hover

/-- **A login that has no verdict at rest has nothing decisive behind it.** -/
theorem Follows.awaits {seat : Seat} {seen : List Occurrence} (h : seat.Follows seen)
    (hrest : seat.session.AtRest) (hnone : firstVerdict seen = none) :
    seat.session.stopping = false ∧ seat.session.Awaits seen := by
  have hwork := hrest .work
  cases hp : seat.session.phase with
  | fresh => rw [Session.ready_of_fresh hp] at hwork; cases hwork
  | connecting due =>
    rw [Session.ready_of_connecting hp, Bool.or_eq_false_iff] at hwork
    refine ⟨hwork.1, .inl ⟨due, hp, fun t ht => ?_⟩⟩
    rw [Option.mem_def.mp ht] at hwork
    simpa using hwork.2
  | running =>
    obtain ⟨hall, -, hsorted⟩ := h.tracks.running hp
    rw [Session.ready_of_running hp, Bool.or_eq_false_iff] at hwork
    have hinbox : seat.session.inbox = [] := by simpa using hwork.2
    refine ⟨hwork.1, .inr ⟨hp, ?_, hrest.ahead hp hsorted⟩⟩
    rw [← hall, hinbox, List.nil_append, List.map_map]
    rfl
  | finished | crashed => exact absurd hnone (h.decided (by rw [hp]; rfl))

/-! ## The law of the login -/

/-- **The first decisive occurrence decides the login.** Whatever happens to a session, in any order
and at any time:

* its owner is told the verdict of the first decisive occurrence that the session has seen;
* nothing that happens later changes it;
* the session sees what its script brings about, in that order, up to some point, and after that a
  request to stop if there was one;
* once it is asked to stop, it sees nothing else, whatever else has come;
* as long as there is no verdict at rest, nothing decisive has come. -/
theorem login_first_decisive (start : Nat) (settings : SessionSettings) (pace : Option Pace)
    (script : Script) (ms : List Move) :
    let seat := fresh start settings pace script
    let seen := seat.seen ms
    (seat.run ms).answer = firstVerdict seen ∧
      (∀ v, firstVerdict seen = some v → ∀ ms', (seat.run (ms ++ ms')).answer = some v) ∧
      ((∃ rest, seen ++ rest = script.occurrences) ∨
        .stop ∈ ms ∧ ∃ before rest, seen = before ++ [.stop] ∧
          before ++ rest = script.occurrences) ∧
      (∀ ms₁ ms₂, ms = ms₁ ++ .stop :: ms₂ →
        seen = seat.seen ms₁ ∨ seen = seat.seen ms₁ ++ [.stop]) ∧
      ((seat.run ms).session.AtRest → firstVerdict seen = none →
        .stop ∉ ms ∧ (seat.run ms).session.Awaits seen) := by
  intro seat seen
  have hfresh : seat.Follows [] := follows_fresh start settings pace script
  have hrun : (seat.run ms).Follows seen := hfresh.run ms
  have hstop := stopping_run hfresh.coherent ms
  refine ⟨hrun.answer_eq, fun v hv ms' => ?_, ?_, ?_, fun hrest hnone => ?_⟩
  · rw [run_append]
    exact hrun.answer_run (hrun.answer_eq.trans hv) ms'
  · have hscript : (seat.run ms).session.script = script := script_run hfresh.coherent ms
    rw [← hscript]
    exact hrun.tracks.prefix_occurrences.imp_right fun ⟨hs, h⟩ =>
      ⟨(hstop.mp hs).resolve_left (by simp [seat, fresh, Session.start]), h⟩
  · rintro ms₁ ms₂ rfl
    have hc := coherent_move _ .stop (hfresh.run ms₁).coherent
    have hrest := seen_of_stopping hc rfl ms₂
    rw [show seen = seat.seen ms₁ ++ ((seat.run ms₁).move .stop).seen ms₂ from
      seen_append seat ms₁ _]
    exact hrest.imp (fun h => by rw [h, List.append_nil]) fun h => by rw [h]
  · obtain ⟨hs, hawaits⟩ := hrun.awaits hrest hnone
    refine ⟨fun hmem => ?_, hawaits⟩
    rw [hstop.mpr (.inr hmem)] at hs
    cases hs

end Seat

end BotFleet
