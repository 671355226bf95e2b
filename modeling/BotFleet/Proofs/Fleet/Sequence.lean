import BotFleet.Proofs.Fleet.Schedule
import BotFleet.Proofs.Seat.Answer

/-!
# Bots join one after the other

The instants at which bots are started and at which their logins are settled follow from their
scripts and from the pause alone.

* `Order.launchAt`, `Order.answerAt`: these instants;
* `Recruitment.Scheduled`, **`Recruitment.Scheduled.move`**: a recruiting that keeps to these
  instants, and goes on so;
* **`Recruitment.Scheduled.others_answered`**: no two logins are open at once;
* `Recruitment.Tells`, **`Recruitment.Scheduled.tells_connected`**,
  **`Recruitment.Scheduled.tells_answered`**, **`Recruitment.Scheduled.tells_done`**: what has
  happened was not too early, and what has not happened is not late.
-/

namespace BotFleet

namespace Order

/-! ## When bots join -/

/-- When the bots are started, the first of them first. A bot is started one pause after the login of
the bot before it is settled. -/
def launchAt (o : Order) : Nat → Option Nat
  | 0 => some 0
  | k + 1 => do
    let start ← o.launchAt k
    let delay ← (o.script (k + 1)).answersAfter
    return start + delay + o.pause

/-- When the login of a bot is settled. -/
def answerAt (o : Order) (k : Nat) : Option Nat := do
  let start ← o.launchAt k
  let delay ← (o.script (k + 1)).answersAfter
  return start + delay

theorem answerAt_eq_some_iff {o : Order} {k t : Nat} : o.answerAt k = some t ↔
    ∃ start delay, o.launchAt k = some start ∧ (o.script (k + 1)).answersAfter = some delay ∧
      t = start + delay := by
  simp only [answerAt, bind, Option.bind_eq_some_iff, pure, Option.some.injEq]
  exact ⟨fun ⟨s, hs, d, hd, ht⟩ => ⟨s, d, hs, hd, ht.symm⟩,
    fun ⟨s, d, hs, hd, ht⟩ => ⟨s, hs, d, hd, ht.symm⟩⟩

theorem launchAt_succ (o : Order) (k : Nat) :
    o.launchAt (k + 1) = (o.answerAt k).map (· + o.pause) := by
  rw [launchAt, answerAt]
  cases o.launchAt k with
  | none => rfl
  | some start => cases (o.script (k + 1)).answersAfter <;> rfl

theorem launchAt_mono {o : Order} {j k t : Nat} (hjk : j ≤ k) (h : o.launchAt k = some t) :
    ∃ t', o.launchAt j = some t' ∧ t' ≤ t := by
  induction k generalizing t with
  | zero =>
    obtain rfl := Nat.le_zero.mp hjk
    exact ⟨t, h, Nat.le_refl t⟩
  | succ k ih =>
    rcases Nat.le_succ_iff.mp hjk with hjk | rfl
    · rw [launchAt_succ, Option.map_eq_some_iff] at h
      obtain ⟨a, ha, rfl⟩ := h
      obtain ⟨start, delay, hstart, -, rfl⟩ := answerAt_eq_some_iff.mp ha
      obtain ⟨t', ht', hle⟩ := ih hjk hstart
      exact ⟨t', ht', by omega⟩
    · exact ⟨t, h, Nat.le_refl t⟩

end Order

namespace Recruitment

variable {o : Order} {reporter : Reporter} {r : Recruitment} {k t : Nat}

/-! ## Keeping to the schedule -/

theorem now_step (r : Recruitment) : r.step.fleet.now = r.fleet.now := by
  cases hp : r.phase with
  | starting i => exact (launched hp).now
  | awaiting i =>
    cases hs : r.fleet.seats[i - 1]? with
    | none => rw [step, hp]; simp only [Fleet.pollLogin, hs]
    | some seat =>
      cases hv : seat.answer with
      | none => rw [step, hp]; simp only [Fleet.pollLogin_eq hs, hv]
      | some v => exact (recorded_step hp hs hv).now.trans (now_ask ..)
  | pausing i due =>
    rw [step, hp]
    simp only
    split <;> rfl
  | done => rw [step, hp]

theorem now_move (r : Recruitment) {m : Move} (hm : ∀ d, m ≠ .pass d) :
    (r.move m).fleet.now = r.fleet.now := by
  cases m with
  | step => exact r.now_step
  | act i draw task => exact now_act ..
  | change i responses => rfl
  | pass d => exact absurd rfl (hm d)

/-- A session that was started when its bot was due, and has been running in time since. -/
def Placed (o : Order) (k now : Nat) : Option Seat → Prop
  | none => True
  | some seat => ∃ h, seat.OnCourse h ∧ o.launchAt k = some seat.start ∧
      seat.start + seat.session.clock = now

theorem Placed.run {now d : Nat} {seat : Seat} (h : Placed o k now (some seat)) {m : Seat.Move}
    (hm : seat.Allows m) (hstop : m ≠ .stop)
    (hclock : (seat.move m).session.clock = seat.session.clock + d) :
    Placed o k (now + d) (some (seat.move m)) := by
  obtain ⟨history, hcourse, hstart, rfl⟩ := h
  refine ⟨_, hcourse.move hm hstop, (Seat.start_move seat m).symm ▸ hstart, ?_⟩
  rw [Seat.start_move, hclock, Nat.add_assoc]

theorem Placed.moved {now now' : Nat} {seat? seat?' : Option Seat} (h : Placed o k now seat?)
    (hm : SeatMoved o k now now' seat? seat?')
    (hjoins : seat? = none → seat?'.isSome = true → o.launchAt k = some now) :
    Placed o k now' seat?' := by
  cases hm with
  | absent => trivial
  | joins hnow =>
    subst hnow
    exact ⟨[], Seat.onCourse_fresh .., hjoins rfl rfl, rfl⟩
  | stays seat hnow =>
    subst hnow
    exact h
  | acts seat m hnow hstop hchange hpass =>
    subst hnow
    have hallows : seat.Allows m := by
      cases m with
      | pass d => exact absurd rfl (hpass d)
      | _ => trivial
    obtain ⟨history, hcourse, -⟩ := id h
    exact h.run (d := 0) hallows hstop (Seat.clock_move hcourse.follows.coherent hpass)
  | passes seat d hnow hd =>
    subst hnow
    exact h.run hd (by simp) rfl

theorem Placed.answerAt_le {now : Nat} {seat : Seat} (h : Placed o k now (some seat))
    (hserves : o.Serves (k + 1) seat) (ha : seat.answer.isSome = true) :
    ∃ t, o.answerAt k = some t ∧ t ≤ now := by
  obtain ⟨history, hcourse, hstart, rfl⟩ := h
  obtain ⟨seen, -, -, hscript, -⟩ := hserves.follows
  obtain ⟨d, hd, hle⟩ := hcourse.answered ha
  rw [hscript] at hd
  exact ⟨_, Order.answerAt_eq_some_iff.mpr ⟨_, d, hstart, hd, rfl⟩, Nat.add_le_add_left hle _⟩

theorem Placed.le_answerAt {now : Nat} {seat : Seat} (h : Placed o k now (some seat))
    (hserves : o.Serves (k + 1) seat) (ha : seat.answer = none) (ht : o.answerAt k = some t) :
    now ≤ t ∧ (seat.session.AtRest → now < t) := by
  obtain ⟨history, hcourse, hstart, rfl⟩ := h
  obtain ⟨seen, -, -, hscript, -⟩ := hserves.follows
  obtain ⟨start, d, hstart', hd, rfl⟩ := Order.answerAt_eq_some_iff.mp ht
  obtain rfl : seat.start = start := Option.some.inj (hstart.symm.trans hstart')
  rw [← hscript] at hd
  exact ⟨Nat.add_le_add_left (hcourse.unanswered ha hd) _,
    fun hrest => Nat.add_lt_add_left (hcourse.unanswered_of_rest ha hrest hd) _⟩

/-- A recruiting that keeps to the schedule. -/
structure Scheduled (o : Order) (reporter : Reporter) (r : Recruitment) : Prop where
  sound : r.Sound o reporter
  placed : ∀ k, Placed o k r.fleet.now r.fleet.seats[k]?
  next : match r.phase with
    | .starting i => o.launchAt (i - 1) = some r.fleet.now
    | .awaiting i => r.ready = true → o.answerAt (i - 1) = some r.fleet.now
    | .pausing i due => o.launchAt i = some due ∧ r.fleet.now ≤ due
    | .done => True

theorem scheduled_start (o : Order) (reporter : Reporter) :
    (start o reporter).Scheduled o reporter where
  sound := sound_start o reporter
  placed k := by simp [start, Placed]
  next := by
    by_cases hcount : o.count = 0
    · simp [start, hcount]
    · simp [start, hcount, Order.launchAt]

section Scheduled

variable (h : r.Scheduled o reporter)
include h

theorem Scheduled.starting {i : Nat} (hp : r.phase = .starting i) :
    o.launchAt (i - 1) = some r.fleet.now := by
  have hnext := h.next
  rwa [hp] at hnext

theorem Scheduled.awaiting {i : Nat} (hp : r.phase = .awaiting i) (hr : r.ready = true) :
    o.answerAt (i - 1) = some r.fleet.now := by
  have hnext := h.next
  rw [hp] at hnext
  exact hnext hr

theorem Scheduled.pausing {i due : Nat} (hp : r.phase = .pausing i due) :
    o.launchAt i = some due ∧ r.fleet.now ≤ due := by
  have hnext := h.next
  rwa [hp] at hnext

theorem Scheduled.seat {seat : Seat} (hk : r.fleet.seats[k]? = some seat) :
    Placed o k r.fleet.now (some seat) ∧ o.Serves (k + 1) seat :=
  ⟨hk ▸ h.placed k, h.sound.serves k seat hk⟩

theorem Scheduled.awaited {i : Nat} (hp : r.phase = .awaiting i) :
    ∃ seat, r.fleet.seats[i - 1]? = some seat ∧ r.ready = seat.answer.isSome ∧
      ∀ t, o.answerAt (i - 1) = some t → r.fleet.now ≤ t ∧ (r.Rests → r.fleet.now < t) := by
  obtain ⟨seat, hseat, -, hready⟩ := h.sound.awaited hp
  refine ⟨seat, hseat, hready, fun t ht => ?_⟩
  obtain ⟨hplaced, hserves⟩ := h.seat hseat
  cases ha : seat.answer with
  | none =>
    obtain ⟨hle, hlt⟩ := hplaced.le_answerAt hserves ha ht
    exact ⟨hle, fun hrests => hlt (hrests.fleet seat (List.mem_of_getElem? hseat))⟩
  | some v =>
    rw [ha] at hready
    obtain rfl := Option.some.inj ((h.awaiting hp hready).symm.trans ht)
    refine ⟨Nat.le_refl _, fun hrests => ?_⟩
    rw [hrests.ready] at hready
    cases hready

theorem Scheduled.keeps {f : Fleet} (hlength : f.seats.length = r.fleet.seats.length) {k : Nat}
    (hm : SeatMoved o k r.fleet.now f.now r.fleet.seats[k]? f.seats[k]?) :
    Placed o k f.now f.seats[k]? := by
  refine (h.placed k).moved hm fun hnone hsome => ?_
  rw [List.getElem?_eq_none_iff] at hnone
  rw [List.getElem?_eq_none (hlength ▸ hnone)] at hsome
  cases hsome

theorem Scheduled.step_starting {i : Nat} (hp : r.phase = .starting i) :
    r.step.Scheduled o reporter := by
  have hl := launched hp
  have hlast : i - 1 = r.fleet.seats.length := by
    obtain ⟨hlength, hpos, -⟩ := h.sound.inStep.starting hp
    omega
  refine ⟨h.sound.step, fun k => ?_, ?_⟩
  · refine (h.placed k).moved (seatMoved_step h.sound) fun hnone hsome => ?_
    rw [List.getElem?_eq_none_iff] at hnone
    obtain ⟨seat, hseat⟩ := Option.isSome_iff_exists.mp hsome
    have hlt : k < r.step.fleet.seats.length := (List.getElem?_eq_some_iff.mp hseat).1
    rw [hl.seats, List.length_append, List.length_singleton] at hlt
    obtain rfl : k = i - 1 := by omega
    exact h.starting hp
  · rw [hl.phase]
    intro hready
    obtain ⟨seat, hseat, -, hanswer⟩ := h.sound.step.awaited hl.phase
    rw [hl.seats, hlast, List.getElem?_concat_length] at hseat
    cases hseat
    rw [hready] at hanswer
    cases hanswer

theorem Scheduled.step_awaiting {i : Nat} (hp : r.phase = .awaiting i) :
    r.step.Scheduled o reporter := by
  obtain ⟨hseats, hcompleted, -⟩ := h.sound.inStep.awaiting hp
  obtain ⟨seat, hseat, hready, -⟩ := h.awaited hp
  cases hv : seat.answer with
  | none =>
    have hstep : r.step = r := by
      rw [Recruitment.step, hp]
      simp only [Fleet.pollLogin_eq hseat, hv]
    exact hstep.symm ▸ h
  | some v =>
    have hr := recorded_step hp hseat hv
    have hlength := (r.fleet.goes_move (m := .ask (i - 1)) rfl
      (by simp [Fleet.Move.target?])).length
    have hkeeps (k : Nat) : Placed o k r.step.fleet.now r.step.fleet.seats[k]? :=
      h.keeps (by rw [hr.seats, hlength]) (seatMoved_step h.sound)
    refine ⟨h.sound.step, hkeeps, ?_⟩
    rw [hv] at hready
    rcases hr.phase with ⟨-, hphase⟩ | ⟨-, hphase⟩ <;> rw [hphase]
    · have hi : i - 1 + 1 = i := by omega
      have hlaunch := o.launchAt_succ (i - 1)
      rw [h.awaiting hp hready, hi] at hlaunch
      have hdue : Clock.wake (r.fleet.move (.ask (i - 1))).now r.order.stagger =
          r.fleet.now + o.pause := by
        rw [now_ask, h.sound.order]
        rfl
      show o.launchAt i = some (Clock.wake _ _) ∧ r.step.fleet.now ≤ Clock.wake _ _
      simp only [hdue, r.now_step, hlaunch]
      exact ⟨rfl, Nat.le_add_right ..⟩
    · trivial

theorem Scheduled.step_pausing {i due : Nat} (hp : r.phase = .pausing i due) :
    r.step.Scheduled o reporter := by
  by_cases hdue : due ≤ r.fleet.now
  · have hstep : r.step = { r with phase := .starting (i + 1) } := by
      rw [Recruitment.step, hp]
      exact if_pos hdue
    obtain ⟨hlaunch, hle⟩ := h.pausing hp
    refine ⟨h.sound.step, fun k => h.keeps (by rw [hstep]) (seatMoved_step h.sound), ?_⟩
    rw [hstep]
    exact hlaunch.trans (congrArg some (Nat.le_antisymm hdue hle))
  · have hstep : r.step = r := by rw [Recruitment.step, hp]; exact if_neg hdue
    exact hstep.symm ▸ h

/-- **A step of the recruiter keeps to the schedule.** -/
theorem Scheduled.step : r.step.Scheduled o reporter := by
  cases hp : r.phase with
  | starting i => exact h.step_starting hp
  | awaiting i => exact h.step_awaiting hp
  | pausing i due => exact h.step_pausing hp
  | done =>
    have hstep : r.step = r := by rw [Recruitment.step, hp]
    exact hstep.symm ▸ h

theorem Scheduled.at_instant {r' : Recruitment} (hsound : r'.Sound o reporter)
    (hplaced : ∀ k, Placed o k r'.fleet.now r'.fleet.seats[k]?) (hphase : r'.phase = r.phase)
    (hnow : r'.fleet.now = r.fleet.now) : r'.Scheduled o reporter := by
  refine ⟨hsound, hplaced, ?_⟩
  have hnext := h.next
  rw [hphase, hnow]
  cases hp : r.phase with
  | awaiting i =>
    intro hready
    rw [hp] at hphase
    obtain ⟨seat, hseat, hserves, hanswer⟩ := hsound.awaited hphase
    obtain ⟨-, -, -, hahead⟩ := h.awaited hp
    have hi := (hsound.inStep.awaiting hphase).2.1
    have hplaced := hplaced (i - 1)
    rw [hseat, hnow] at hplaced
    have hlast : i - 1 + 1 = i := by omega
    rw [hready] at hanswer
    obtain ⟨t, ht, hle⟩ := hplaced.answerAt_le (hlast.symm ▸ hserves) hanswer.symm
    rw [ht, Nat.le_antisymm (hahead t ht).1 hle]
  | _ => rw [hp] at hnext; exact hnext

theorem Scheduled.pass {d : Nat} (hm : r.Permits (.pass d)) :
    (r.move (.pass d)).Scheduled o reporter := by
  refine ⟨h.sound.run [.pass d], fun k => ?_, ?_⟩
  · exact h.keeps (List.length_map ..) (seat_move h.sound hm.allows (by simp))
  · have hready := hm.1.1
    have hphase : (r.move (.pass d)).phase = r.phase := rfl
    rw [hphase]
    cases hp : r.phase with
    | starting i => rw [ready, hp] at hready; cases hready
    | awaiting i =>
      -- the login is open, and stays so
      intro hready'
      obtain ⟨seat, hseat, -, hanswer⟩ := h.sound.awaited hp
      obtain ⟨seat', hseat', -, hanswer'⟩ := (h.sound.run [.pass d]).awaited hp
      have hpassed : (r.move (.pass d)).fleet.seats[i - 1]? = some (seat.move (.pass d)) := by
        show (r.fleet.seats.map _)[i - 1]? = _
        rw [List.getElem?_map, hseat]
        rfl
      cases hpassed.symm.trans hseat'
      exact absurd (hready.symm.trans (hanswer.trans (hanswer'.symm.trans hready'))) (by decide)
    | pausing i due => exact ⟨(h.pausing hp).1, hm.1.le_of_pausing hp⟩
    | done => trivial

/-- **The recruiting goes on to keep to the schedule**, whatever happens on a clock that waits for
everybody. -/
theorem Scheduled.move {m : Move} (hm : r.Permits m) : (r.move m).Scheduled o reporter := by
  have hsound := h.sound.run [m]
  cases m with
  | step => exact h.step
  | act i draw task =>
    have hgoes := r.fleet.goes_move (m := .act i draw task) rfl (by simp [Fleet.Move.target?])
    exact h.at_instant hsound
      (fun k => h.keeps hgoes.length (seat_move h.sound hm.allows (by simp))) rfl (now_act ..)
  | change i responses =>
    refine h.at_instant hsound (fun k => ?_) rfl rfl
    have hplaced := h.placed k
    show Placed o k r.fleet.now (r.fleet.seats.modify i (·.move (.change responses)))[k]?
    rw [List.getElem?_modify]
    cases hseat : r.fleet.seats[k]? with
    | none => trivial
    | some seat =>
      rw [hseat] at hplaced
      by_cases hik : i = k
      · simp only [hik, if_true]
        obtain ⟨history, hcourse, -⟩ := id hplaced
        exact hplaced.run (d := 0) trivial (by simp)
          (Seat.clock_move hcourse.follows.coherent (by simp))
      · simp only [hik, if_false]
        exact hplaced
  | pass d => exact h.pass hm

/-! ## The next bot -/

theorem Scheduled.le_launchAt_next (hlt : r.fleet.seats.length < o.count)
    (ht : o.launchAt r.fleet.seats.length = some t) :
    r.fleet.now ≤ t ∧ (r.Rests → r.fleet.now < t) := by
  cases hp : r.phase with
  | starting i =>
    have hin := h.sound.inStep.starting hp
    have hlaunch := h.starting hp
    have hi : i - 1 = r.fleet.seats.length := by omega
    rw [hi, ht] at hlaunch
    cases hlaunch
    refine ⟨Nat.le_refl _, fun hrests => ?_⟩
    have hready := hrests.ready
    rw [ready, hp] at hready
    cases hready
  | awaiting i =>
    have hin := h.sound.inStep.awaiting hp
    obtain ⟨seat, -, -, hahead⟩ := h.awaited hp
    have hi : r.fleet.seats.length = i - 1 + 1 := by omega
    rw [hi, Order.launchAt_succ, Option.map_eq_some_iff] at ht
    obtain ⟨a, ha, rfl⟩ := ht
    obtain ⟨hle, hstrict⟩ := hahead a ha
    exact ⟨by omega, fun hrests => by have := hstrict hrests; omega⟩
  | pausing i due =>
    have hin := h.sound.inStep.pausing hp
    obtain ⟨hlaunch, hle⟩ := h.pausing hp
    rw [hin.1, hlaunch] at ht
    cases ht
    refine ⟨hle, fun hrests => ?_⟩
    have hready := hrests.ready
    simpa [ready, hp] using hready
  | done =>
    have hin := h.sound.inStep.done hp
    rw [h.sound.order] at hin
    omega

theorem Scheduled.le_launchAt (hk : r.fleet.seats[k]? = none) (hlt : k < o.count)
    (ht : o.launchAt k = some t) : r.fleet.now ≤ t ∧ (r.Rests → r.fleet.now < t) := by
  have hlength := List.getElem?_eq_none_iff.mp hk
  obtain ⟨t', ht', hle⟩ := Order.launchAt_mono hlength ht
  obtain ⟨hnow, hstrict⟩ := h.le_launchAt_next (Nat.lt_of_le_of_lt hlength hlt) ht'
  exact ⟨Nat.le_trans hnow hle, fun hrests => Nat.lt_of_lt_of_le (hstrict hrests) hle⟩

end Scheduled

/-! ## What has happened, and what has not -/

/-- The bot with a given place has called its client's connect. -/
def hasConnected (r : Recruitment) (k : Nat) : Bool :=
  r.fleet.seats[k]?.any fun seat => 0 < seat.times .connect

/-- The login of the bot with a given place is settled. -/
def hasAnswered (r : Recruitment) (k : Nat) : Bool :=
  r.fleet.seats[k]?.any (·.answer.isSome)

/-- Something that has happened was not too early, and something that has not happened is not late:
when nothing can be done, it still lies ahead. -/
structure Tells (r : Recruitment) (happened : Bool) (t? : Option Nat) : Prop where
  past : happened = true → ∃ t, t? = some t ∧ t ≤ r.fleet.now
  ahead : happened = false → ∀ t, t? = some t →
    r.fleet.now ≤ t ∧ (r.Rests → r.fleet.now < t)

section Scheduled

variable (h : r.Scheduled o reporter)
include h

/-- **No two logins are open at once**: all sessions but the last have an answer. -/
theorem Scheduled.others_answered (hlast : k + 1 < r.fleet.seats.length) :
    r.hasAnswered k = true := by
  have hlt : k < r.completed.length := by
    cases hp : r.phase with
    | starting i => have hin := h.sound.inStep.starting hp; omega
    | awaiting i => have hin := h.sound.inStep.awaiting hp; omega
    | pausing i due => have hin := h.sound.inStep.pausing hp; omega
    | done => have hin := h.sound.inStep.done hp; omega
  obtain ⟨-, seat, hseat, hanswer⟩ := h.sound.record k _ (List.getElem?_eq_getElem hlt)
  rw [hasAnswered, hseat, Option.any_some, hanswer]
  rfl

/-- **A bot connects when it is due.** -/
theorem Scheduled.tells_connected (hk : k < o.count) :
    r.Tells (r.hasConnected k) (o.launchAt k) := by
  unfold hasConnected
  cases hseat : r.fleet.seats[k]? with
  | none => exact ⟨nofun, fun _ t ht => h.le_launchAt hseat hk ht⟩
  | some seat =>
    obtain ⟨⟨history, hcourse, hstart, hnow⟩, -⟩ := h.seat hseat
    refine ⟨fun _ => ⟨_, hstart, by omega⟩, fun hn t ht => ?_⟩
    obtain ⟨hclock, hbusy⟩ := hcourse.clock_of_unconnected (by simpa using hn)
    obtain rfl : seat.start = t := Option.some.inj (hstart.symm.trans ht)
    refine ⟨by omega, fun hrests => ?_⟩
    exact absurd (hrests.fleet seat (List.mem_of_getElem? hseat)) hbusy

/-- **Its login is settled when its script decides it.** -/
theorem Scheduled.tells_answered (hk : k < o.count) :
    r.Tells (r.hasAnswered k) (o.answerAt k) := by
  unfold hasAnswered
  cases hseat : r.fleet.seats[k]? with
  | none =>
    refine ⟨nofun, fun _ t ht => ?_⟩
    obtain ⟨start, delay, hstart, -, rfl⟩ := Order.answerAt_eq_some_iff.mp ht
    obtain ⟨hle, hstrict⟩ := h.le_launchAt hseat hk hstart
    exact ⟨by omega, fun hrests => by have := hstrict hrests; omega⟩
  | some seat =>
    obtain ⟨hplaced, hserves⟩ := h.seat hseat
    refine ⟨fun ha => hplaced.answerAt_le hserves ha, fun ha t ht => ?_⟩
    obtain ⟨hle, hstrict⟩ := hplaced.le_answerAt hserves (by simpa using ha) ht
    exact ⟨hle, fun hrests => hstrict (hrests.fleet seat (List.mem_of_getElem? hseat))⟩

theorem Scheduled.connected_of_answered (ha : r.hasAnswered k = true) : r.hasConnected k = true := by
  unfold hasAnswered at ha
  unfold hasConnected
  cases hseat : r.fleet.seats[k]? with
  | none => rw [hseat] at ha; cases ha
  | some seat =>
    rw [hseat] at ha
    obtain ⟨⟨history, hcourse, -⟩, -⟩ := h.seat hseat
    exact decide_eq_true (hcourse.connected_of_answered ha)

theorem Scheduled.answered_of_done (hdone : r.isDone = true) (hk : k < o.count) :
    r.hasAnswered k = true := by
  obtain ⟨seat, v, hseat, -, -, hanswer, -⟩ := (h.sound.complete hdone).record k hk
  rw [hasAnswered, hseat, Option.any_some, hanswer]
  rfl

/-- **The recruiting is done when the last login is settled.** -/
theorem Scheduled.tells_done :
    r.Tells r.isDone (if o.count = 0 then some 0 else o.answerAt (o.count - 1)) := by
  by_cases hcount : o.count = 0
  · rw [if_pos hcount]
    refine ⟨fun _ => ⟨0, rfl, Nat.zero_le _⟩, fun hdone => ?_⟩
    -- without bots the recruiting is done from the beginning
    have horder := h.sound.order
    cases hp : r.phase with
    | starting i => have hin := h.sound.inStep.starting hp; rw [horder] at hin; omega
    | awaiting i => have hin := h.sound.inStep.awaiting hp; rw [horder] at hin; omega
    | pausing i due => have hin := h.sound.inStep.pausing hp; rw [horder] at hin; omega
    | done => simp [isDone, hp] at hdone
  · rw [if_neg hcount]
    have hlast : o.count - 1 < o.count := by omega
    have htells := h.tells_answered hlast
    refine ⟨fun hdone => htells.past (h.answered_of_done hdone hlast), fun hdone t ht => ?_⟩
    cases ha : r.hasAnswered (o.count - 1) with
    | false => exact htells.ahead ha t ht
    | true =>
      -- the last login has just been settled, and is still to be recorded
      have horder := h.sound.order
      have hlength : o.count - 1 < r.fleet.seats.length := by
        rw [hasAnswered, Option.any_eq_true] at ha
        obtain ⟨seat, hseat, -⟩ := ha
        exact (List.getElem?_eq_some_iff.mp hseat).1
      obtain ⟨i, hp, hi⟩ : ∃ i, r.phase = .awaiting i ∧ i - 1 = o.count - 1 := by
        cases hp : r.phase with
        | starting i => have hin := h.sound.inStep.starting hp; rw [horder] at hin; omega
        | awaiting i =>
          have hin := h.sound.inStep.awaiting hp
          rw [horder] at hin
          exact ⟨i, rfl, by omega⟩
        | pausing i due => have hin := h.sound.inStep.pausing hp; rw [horder] at hin; omega
        | done => simp [isDone, hp] at hdone
      obtain ⟨seat, hseat, hready, hahead⟩ := h.awaited hp
      exact hahead t (hi ▸ ht)

end Scheduled

end Recruitment

end BotFleet
