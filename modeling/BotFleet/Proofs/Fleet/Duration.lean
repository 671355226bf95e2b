import BotFleet.Proofs.Fleet.Sequence

/-!
# How long recruiting takes

* `Recruitment.since`, `Recruitment.OnTime`: when something came about in a recruiting, and that this
  was the right instant;
* **`Recruitment.Scheduled.onTime_since`**: what can be told from each state is told of the run;
* `Order.duration`, `Order.doneAt_eq_some_iff`: how long it takes to recruit all bots;
* **`Order.now_of_recruit`**, **`Order.recruit_of_doneAt`**: the recruiter returns exactly then;
* `Recruitment.InTurn`, **`Recruitment.inTurn`**: the bots join in turn;
* **`Order.joins_in_turn`**: the law of the sequence.
-/

namespace BotFleet

namespace Order

/-! ## The whole duration -/

/-- How long the login of a bot takes. -/
def loginTime (o : Order) (k : Nat) : Nat := (o.script (k + 1)).answersAfter.getD 0

/-- The login of every bot is settled some time after its start. -/
def AllAnswer (o : Order) : Prop := ∀ k, k < o.count → (o.script (k + 1)).answersAfter.isSome = true

/-- How long the logins of the first so many bots take together. -/
def loginTimes (o : Order) : Nat → Nat
  | 0 => 0
  | k + 1 => o.loginTimes k + o.loginTime k

/-- How long it takes to recruit all bots: their logins, and a pause after each but the last. -/
def duration (o : Order) : Nat := o.loginTimes o.count + (o.count - 1) * o.pause

theorem answerAt_eq_some_iff_sum (o : Order) (k t : Nat) : o.answerAt k = some t ↔
    (∀ j ≤ k, (o.script (j + 1)).answersAfter.isSome = true) ∧
      t = o.loginTimes (k + 1) + k * o.pause := by
  induction k generalizing t with
  | zero =>
    simp only [answerAt_eq_some_iff, launchAt, Nat.le_zero, forall_eq]
    cases hd : (o.script (0 + 1)).answersAfter with
    | none => simp
    | some d => simp [loginTimes, loginTime, hd]
  | succ k ih =>
    simp only [answerAt_eq_some_iff (k := k + 1), launchAt_succ, Option.map_eq_some_iff, ih]
    have hsum : o.loginTimes (k + 1 + 1) = o.loginTimes (k + 1) + o.loginTime (k + 1) := rfl
    rw [hsum, Nat.succ_mul]
    constructor
    · rintro ⟨start, d, ⟨a, ⟨hall, rfl⟩, rfl⟩, hd, rfl⟩
      have hlast : o.loginTime (k + 1) = d := by rw [loginTime, hd, Option.getD_some]
      refine ⟨fun j hj => ?_, by omega⟩
      rcases Nat.le_succ_iff.mp hj with hj | rfl
      · exact hall j hj
      · rw [hd]; rfl
    · rintro ⟨hall, rfl⟩
      obtain ⟨d, hd⟩ := Option.isSome_iff_exists.mp (hall (k + 1) (Nat.le_refl _))
      have hlast : o.loginTime (k + 1) = d := by rw [loginTime, hd, Option.getD_some]
      exact ⟨_, d, ⟨_, ⟨fun j hj => hall j (Nat.le_succ_of_le hj), rfl⟩, rfl⟩, hd, by omega⟩

/-- When the recruiting is done. -/
def doneAt (o : Order) : Option Nat := if o.count = 0 then some 0 else o.answerAt (o.count - 1)

theorem doneAt_eq_some_iff (o : Order) (t : Nat) :
    o.doneAt = some t ↔ o.AllAnswer ∧ t = o.duration := by
  unfold doneAt duration AllAnswer
  by_cases hcount : o.count = 0
  · simp only [hcount, if_true, Option.some.injEq, Nat.not_lt_zero, false_implies, implies_true,
      true_and, loginTimes, Nat.zero_sub, Nat.zero_mul]
    exact eq_comm
  · obtain ⟨n, hn⟩ := Nat.exists_eq_succ_of_ne_zero hcount
    rw [if_neg hcount, answerAt_eq_some_iff_sum, hn, Nat.succ_sub_one]
    simp only [Nat.lt_succ_iff]

end Order

namespace Recruitment

variable {o : Order} {reporter : Reporter} {r : Recruitment} {k : Nat}

/-! ## When something came about -/

/-- The instant at which something came about during a recruiting. -/
def since (p : Recruitment → Bool) : Recruitment → List Move → Option Nat
  | r, [] => if p r then some r.fleet.now else none
  | r, m :: ms => if p r then some r.fleet.now else since p (r.move m) ms

/-- Something came about, if it did, at the right instant. If it did not, that instant has not
passed, and when nothing can be done it still lies ahead. -/
structure OnTime (r : Recruitment) (at? right? : Option Nat) : Prop where
  exact : ∀ t, at? = some t → right? = some t
  ahead : at? = none → ∀ t, right? = some t →
    r.fleet.now ≤ t ∧ (r.Rests → r.fleet.now < t)

theorem OnTime.after {cause? effect? right? right?' : Option Nat} {follow : Nat → Option Nat}
    (hcause : r.OnTime cause? right?) (heffect : r.OnTime effect? right?')
    (hright : right?' = right?.bind follow)
    (hcaused : ∀ t, effect? = some t → ∃ t', cause? = some t') :
    r.OnTime effect? (cause?.bind follow) where
  exact t ht := by
    obtain ⟨t', ht'⟩ := hcaused t ht
    have hfollow := heffect.exact t ht
    rw [hright, hcause.exact t' ht'] at hfollow
    rw [ht']
    exact hfollow
  ahead hnone t ht := by
    obtain ⟨t', ht', hfollow⟩ := Option.bind_eq_some_iff.mp ht
    refine heffect.ahead hnone t ?_
    rw [hright, hcause.exact t' ht']
    exact hfollow

theorem Scheduled.run (h : r.Scheduled o reporter) {ms : List Move} (hms : r.Prompt ms) :
    (r.run ms).Scheduled o reporter := by
  induction ms generalizing r with
  | nil => exact h
  | cons m ms ih => exact ih (h.move hms.1) hms.2

/-- **What can be told from each state is told of the run**, if it does not come about by the mere
passing of time. -/
theorem Scheduled.onTime_since {p : Recruitment → Bool} {right? : Option Nat}
    (htells : ∀ r : Recruitment, r.Scheduled o reporter → r.Tells (p r) right?)
    (hpass : ∀ (r : Recruitment) (d : Nat), p (r.move (.pass d)) = p r)
    (h : r.Scheduled o reporter)
    (hfirst : p r = true → ∀ t, right? = some t → r.fleet.now ≤ t) {ms : List Move}
    (hms : r.Prompt ms) : (r.run ms).OnTime (since p r ms) right? := by
  have hhappened (hp : p r = true) (t : Nat) (ht : some r.fleet.now = some t) :
      right? = some t := by
    cases ht
    obtain ⟨t, ht, hle⟩ := (htells r h).past hp
    rw [ht, Nat.le_antisymm hle (hfirst hp t ht)]
  induction ms generalizing r with
  | nil =>
    unfold since
    cases hp : p r with
    | true => exact ⟨hhappened hp, nofun⟩
    | false => exact ⟨nofun, fun _ => (htells r h).ahead hp⟩
  | cons m ms ih =>
    unfold since
    cases hp : p r with
    | true => exact ⟨hhappened hp, nofun⟩
    | false =>
      have hnext := h.move hms.1
      have hfirst' (hp' : p (r.move m) = true) (t : Nat) (ht : right? = some t) :
          (r.move m).fleet.now ≤ t := by
        have hm : ∀ d, m ≠ .pass d := by
          rintro d rfl
          rw [hpass, hp] at hp'
          cases hp'
        rw [r.now_move hm]
        exact ((htells r h).ahead hp t ht).1
      refine ih hnext hfirst' hms.2 fun hp' t ht => ?_
      cases ht
      obtain ⟨t, ht, hle⟩ := (htells _ hnext).past hp'
      rw [ht, Nat.le_antisymm hle (hfirst' hp' t ht)]

/-- What takes something else for granted came about when that already had. -/
theorem exists_since_of_since {p q : Recruitment → Bool}
    (himp : ∀ r : Recruitment, r.Scheduled o reporter → p r = true → q r = true)
    (h : r.Scheduled o reporter) {ms : List Move} (hms : r.Prompt ms) {t : Nat}
    (ht : since p r ms = some t) : ∃ t', since q r ms = some t' := by
  induction ms generalizing r with
  | nil =>
    unfold since at ht ⊢
    split at ht
    · rename_i hp
      exact ⟨_, if_pos (himp r h hp)⟩
    · cases ht
  | cons m ms ih =>
    unfold since at ht ⊢
    by_cases hq : q r = true
    · exact ⟨_, if_pos hq⟩
    · rw [if_neg hq]
      rw [if_neg fun hp => hq (himp r h hp)] at ht
      exact ih (h.move hms.1) hms.2 ht

/-! ## The milestones of a recruiting -/

/-- When the bot with a given place calls its client's connect. -/
def connectedAt (k : Nat) : Recruitment → List Move → Option Nat := since (·.hasConnected k)

/-- When the login of the bot with a given place is settled. -/
def answeredAt (k : Nat) : Recruitment → List Move → Option Nat := since (·.hasAnswered k)

/-- When the recruiting is done. -/
def finishedAt : Recruitment → List Move → Option Nat := since isDone

section Milestones

variable {ms : List Move} (hms : (start o reporter).Prompt ms)
include hms

theorem onTime_since {p : Recruitment → Bool} {right? : Option Nat}
    (htells : ∀ r : Recruitment, r.Scheduled o reporter → r.Tells (p r) right?)
    (hpass : ∀ (r : Recruitment) (d : Nat), p (r.move (.pass d)) = p r) :
    ((start o reporter).run ms).OnTime (since p (start o reporter) ms) right? :=
  (scheduled_start o reporter).onTime_since htells hpass (fun _ _ _ => Nat.zero_le _) hms

theorem onTime_connectedAt (hk : k < o.count) :
    ((start o reporter).run ms).OnTime (connectedAt k (start o reporter) ms) (o.launchAt k) := by
  refine onTime_since hms (fun _ h => h.tells_connected hk) fun r d => ?_
  show ((r.fleet.seats.map _)[k]?).any _ = _
  rw [List.getElem?_map, Option.any_map]
  rfl

theorem onTime_answeredAt (hk : k < o.count) :
    ((start o reporter).run ms).OnTime (answeredAt k (start o reporter) ms) (o.answerAt k) := by
  refine onTime_since hms (fun _ h => h.tells_answered hk) fun r d => ?_
  show ((r.fleet.seats.map _)[k]?).any _ = _
  rw [List.getElem?_map, Option.any_map]
  rfl

theorem onTime_finishedAt :
    ((start o reporter).run ms).OnTime (finishedAt (start o reporter) ms) o.doneAt :=
  onTime_since hms (fun _ h => h.tells_done) fun _ _ => rfl

theorem connectedAt_of_answeredAt {t : Nat} (h : answeredAt k (start o reporter) ms = some t) :
    ∃ t', connectedAt k (start o reporter) ms = some t' :=
  exists_since_of_since (fun _ h => h.connected_of_answered) (scheduled_start o reporter) hms h

theorem answeredAt_of_connectedAt {t : Nat}
    (h : connectedAt (k + 1) (start o reporter) ms = some t) :
    ∃ t', answeredAt k (start o reporter) ms = some t' := by
  refine exists_since_of_since (fun r h hp => ?_) (scheduled_start o reporter) hms h
  obtain ⟨seat, hseat, -⟩ := (Option.any_eq_true ..).mp hp
  exact h.others_answered (List.getElem?_eq_some_iff.mp hseat).1

theorem answeredAt_of_finishedAt (hk : k < o.count) {t : Nat}
    (h : finishedAt (start o reporter) ms = some t) :
    ∃ t', answeredAt k (start o reporter) ms = some t' :=
  exists_since_of_since (fun _ h hdone => h.answered_of_done hdone hk) (scheduled_start o reporter)
    hms h

end Milestones

/-! ## The recruiter in time -/

theorem Scheduled.goes {r' : Recruitment} (h : r.Scheduled o reporter) (hgoes : Goes r r') :
    r'.Scheduled o reporter := by
  obtain ⟨ms, hms, -, rfl⟩ := hgoes
  exact h.run hms

theorem Scheduled.settle (h : r.Scheduled o reporter) (draw : Draw) :
    ((timed draw).settle r).Scheduled o reporter ∧ ((timed draw).settle r).Rests ∧
      ((timed draw).settle r).fleet.now = r.fleet.now := by
  obtain ⟨last, hd⟩ := h.sound.exists_dueBy
  obtain ⟨-, -, hrests, hnow⟩ := settle_rests draw h.sound hd
  exact ⟨h.goes (goes_settleIn draw _ h.sound), hrests, hnow⟩

/-- As long as the recruiting is not done, there is something to wait for, which does not lie beyond
its end. -/
theorem Scheduled.exists_wait (h : r.Scheduled o reporter) (hrests : r.Rests)
    (hdone : r.isDone = false) {last : Nat} (hlast : o.doneAt = some last) (draw : Draw) :
    ∃ d, (timed draw).wait? r = some d ∧ 0 < d ∧ r.fleet.now + d ≤ last := by
  have hahead {d : Nat} (hd : ∀ w ∈ (timed draw).wait? r, d ≤ w) : r.fleet.now + d ≤ last :=
    ((h.move (hrests.permits draw hd)).tells_done.ahead hdone last hlast).1
  cases hwait : (timed draw).wait? r with
  | none =>
    -- nothing would keep the clock from passing over the end
    have hover := hahead (d := last + 1) (by simp [hwait])
    omega
  | some d => exact ⟨d, rfl, hrests.wait_pos draw hwait, hahead (by simp [hwait])⟩

theorem Scheduled.done_or_wait (h : r.Scheduled o reporter) {last : Nat}
    (hlast : o.doneAt = some last) (draw : Draw) : isDone ((timed draw).settle r) = true ∨
      ∃ d, (timed draw).wait? ((timed draw).settle r) = some d ∧ 0 < d ∧ r.fleet.now + d ≤ last ∧
        ((timed draw).pass d ((timed draw).settle r)).fleet.now = r.fleet.now + d ∧
        ((timed draw).pass d ((timed draw).settle r)).Scheduled o reporter := by
  obtain ⟨hsettled, hrests, hnow⟩ := h.settle draw
  cases hdone : isDone ((timed draw).settle r) with
  | true => exact .inl rfl
  | false =>
    obtain ⟨d, hwait, hpos, hle⟩ := hsettled.exists_wait hrests hdone hlast draw
    have hnext := hsettled.move (hrests.permits draw fun w hw =>
      Nat.le_of_eq (Option.some.inj (hwait.symm.trans hw)))
    exact .inr ⟨d, hwait, hpos, hnow ▸ hle, congrArg (· + d) hnow, hnext⟩

end Recruitment

namespace Order

variable {o : Order} {reporter : Reporter}

/-- **The recruiter returns at the very instant at which the last login is settled.** -/
theorem now_of_recruit {draw : Draw} {memory limit : Nat} {r : Recruitment}
    (h : o.recruit draw memory limit reporter = .ok (r, true)) :
    o.doneAt = some r.fleet.now := by
  obtain ⟨-, hawait⟩ := recruit_eq_ok_iff.mp h
  have hfirst := (Recruitment.scheduled_start o reporter).step
  have hnow : (Recruitment.start o reporter).step.fleet.now = 0 := Recruitment.now_step _
  have hdone := congrArg Prod.snd hawait
  have hr := congrArg (·.1.fleet.now) hawait
  simp only at hdone hr
  rw [← hr]
  rw [Timed.await] at hdone ⊢
  split at hdone
  · rename_i hlimit
    obtain ⟨t, ht, hle⟩ := hfirst.tells_done.past hdone
    rw [if_pos hlimit, ← Nat.le_antisymm hle (hnow ▸ Nat.zero_le t)]
    exact ht
  · rename_i hlimit
    rw [if_neg hlimit]
    refine Timed.now_of_runUntil (fun r : Recruitment => r.fleet.now)
      (P := fun r => r.Scheduled o reporter ∧ ∀ t, o.doneAt = some t → r.fleet.now ≤ t)
      (fun r hr => ?_) (fun r d hr hopen hwait => ?_) (fun r hr => hr.2) limit _
      ⟨hfirst, fun t _ => hnow ▸ Nat.zero_le t⟩ hdone
    · obtain ⟨hsettled, -, hnow⟩ := hr.1.settle draw
      exact ⟨hnow, fun hdone => hnow ▸ hsettled.tells_done.past hdone⟩
    · obtain ⟨hsettled, hrests, -⟩ := hr.1.settle draw
      have hnext := hsettled.move (hrests.permits draw fun w hw =>
        Nat.le_of_eq (Option.some.inj (hwait.symm.trans hw)))
      exact ⟨hnext, fun t ht => (hnext.tells_done.ahead hopen t ht).1⟩

/-- **It does return**, if it may take that long. -/
theorem recruit_of_doneAt (draw : Draw) {memory limit last : Nat}
    (hreserve : reserve memory o.count = .ok ()) (hlast : o.doneAt = some last)
    (hlimit : 0 < limit ∧ last ≤ limit) :
    ∃ r, o.recruit draw memory limit reporter = .ok (r, true) := by
  have hfirst := (Recruitment.scheduled_start o reporter).step
  have hnow : (Recruitment.start o reporter).step.fleet.now = 0 := Recruitment.now_step _
  refine ⟨_, recruit_eq_ok_iff.mpr ⟨hreserve, Prod.ext rfl ?_⟩⟩
  rw [Timed.await, if_neg (Nat.ne_of_gt hlimit.1)]
  have hstep (r : Recruitment) (hr : r.Scheduled o reporter) := hr.done_or_wait hlast draw
  exact Timed.runUntil_reaches hstep limit _ hfirst (by omega)

end Order

/-! ## The law of the sequence -/

/-- Two scripts go alike until the login is settled, whatever comes after it. -/
def Script.AlikeUntilLogin (s s' : Script) : Prop :=
  ∃ before x after after', s.course = before ++ x :: after ∧ s'.course = before ++ x :: after' ∧
    x.2.verdict?.isSome = true

theorem Script.AlikeUntilLogin.answersAfter_eq {s s' : Script} (h : s.AlikeUntilLogin s') :
    s'.answersAfter = s.answersAfter := by
  obtain ⟨before, x, after, after', hs, hs', hx⟩ := h
  have hfind (rest : List (Nat × Occurrence)) :
      (x :: rest).find? (·.2.verdict?.isSome) = some x := List.find?_cons_of_pos hx
  rw [answersAfter, answersAfter, hs, hs', List.find?_append, List.find?_append, hfind, hfind]

namespace Recruitment

/-- How the bots of an order join one after the other in a run of its recruiting. -/
structure InTurn (o : Order) (start : Recruitment) (ms : List Move) : Prop where
  /-- The bots have their places by the numbers in their names. -/
  bots : ∀ k seat, (start.run ms).fleet.seats[k]? = some seat →
    seat.session.identity = identityOf (k + 1)
  /-- Each bot connects once. -/
  once : ∀ seat ∈ (start.run ms).fleet.seats, seat.times .connect ≤ 1
  /-- Nobody has been started after a bot whose login is open. -/
  settled : ∀ i j, i < j → j < (start.run ms).fleet.seats.length →
    (start.run ms).hasAnswered i = true
  /-- The first bot connects at once. -/
  first : 0 < o.count → (start.run ms).OnTime (connectedAt 0 start ms) (some 0)
  /-- Each of the others connects one pause after the login of the one before is settled. -/
  next : ∀ k, k + 1 < o.count → (start.run ms).OnTime (connectedAt (k + 1) start ms)
    ((answeredAt k start ms).map (· + o.pause))
  /-- A login takes as long as the script of the bot says. -/
  login : ∀ k, k < o.count → (start.run ms).OnTime (answeredAt k start ms)
    ((connectedAt k start ms).bind fun t => (o.script (k + 1)).answersAfter.map (t + ·))
  /-- The recruiter is done when the last login is settled. -/
  last : (start.run ms).OnTime (finishedAt start ms)
    (if o.count = 0 then some 0 else answeredAt (o.count - 1) start ms)
  /-- That is after the sum of the logins and of the pauses between them. -/
  whole : ∀ t, finishedAt start ms = some t → o.AllAnswer ∧ t = o.duration

variable {o : Order} {reporter : Reporter}

/-- **The bots join in turn.** -/
theorem inTurn {ms : List Move} (hms : (start o reporter).Prompt ms) :
    InTurn o (start o reporter) ms where
  bots k seat hseat := (((scheduled_start o reporter).run hms).sound.serves k seat hseat).identity_eq
  once seat hseat := by
    obtain ⟨k, hk⟩ := List.mem_iff_getElem?.mp hseat
    obtain ⟨⟨_, hcourse, -⟩, -⟩ := ((scheduled_start o reporter).run hms).seat hk
    rw [hcourse.connects]
    exact Bool.toNat_le _
  settled i j hij hj := ((scheduled_start o reporter).run hms).others_answered (by omega)
  first hcount := onTime_connectedAt hms hcount
  next k hk := by
    rw [Option.map_eq_bind]
    refine (onTime_answeredAt hms (by omega)).after (onTime_connectedAt hms hk) ?_
      fun t => answeredAt_of_connectedAt hms
    rw [o.launchAt_succ, Option.map_eq_bind]
  login k hk := by
    refine (onTime_connectedAt hms hk).after (onTime_answeredAt hms hk) ?_
      fun t => connectedAt_of_answeredAt hms
    rw [Order.answerAt]
    cases o.launchAt k with
    | none => rfl
    | some start => cases (o.script (k + 1)).answersAfter <;> rfl
  last := by
    have hfinished := onTime_finishedAt hms
    unfold Order.doneAt at hfinished
    by_cases hcount : o.count = 0
    · rw [if_pos hcount] at hfinished ⊢
      exact hfinished
    · rw [if_neg hcount] at hfinished ⊢
      have hlast : o.count - 1 < o.count := by omega
      have hafter := (onTime_answeredAt hms hlast).after hfinished
        (Option.bind_fun_some _).symm fun t => answeredAt_of_finishedAt hms hlast
      rwa [Option.bind_fun_some] at hafter
  whole t ht := (o.doneAt_eq_some_iff t).mp ((onTime_finishedAt hms).exact t ht)

end Recruitment

namespace Order

variable {o : Order}

theorem duration_eq_of_alike {o' : Order} (hcount : o'.count = o.count)
    (hstagger : o'.stagger = o.stagger)
    (halike : ∀ k, k < o.count → (o.script (k + 1)).AlikeUntilLogin (o'.script (k + 1))) :
    o'.duration = o.duration := by
  have hlogins (n : Nat) (hn : n ≤ o.count) : o'.loginTimes n = o.loginTimes n := by
    induction n with
    | zero => rfl
    | succ k ih =>
      have hlogin : o'.loginTime k = o.loginTime k := by
        rw [loginTime, loginTime, (halike k hn).answersAfter_eq]
      rw [loginTimes, loginTimes, ih (Nat.le_of_succ_le hn), hlogin]
  rw [duration, duration, pause, pause, hcount, hstagger, hlogins o.count (Nat.le_refl _)]

/-- **The law of the sequence.** In every run of a recruiting on a clock that waits for everybody the
bots join in turn. What the recruiter comes to is such a run, and

* when it returns, the login of every bot is settled, and it has taken as long as the logins and the
  pauses between them;
* it does return, if the login of every bot is settled some time;
* it returns at the same instant whatever the routines do, and whatever the scripts bring about after
  the logins. -/
theorem joins_in_turn (o : Order) (reporter : Reporter) :
    (∀ ms : List Recruitment.Move, (Recruitment.start o reporter).Prompt ms →
      Recruitment.InTurn o (.start o reporter) ms) ∧
    (∀ draw memory limit r done, o.recruit draw memory limit reporter = .ok (r, done) →
      (∃ ms : List Recruitment.Move, (Recruitment.start o reporter).Prompt ms ∧
        (Recruitment.start o reporter).run ms = r) ∧
      (done = true → o.AllAnswer ∧ r.fleet.now = o.duration)) ∧
    (o.AllAnswer → ∀ draw memory limit, reserve memory o.count = .ok () → 0 < limit →
      o.duration ≤ limit → ∃ r, o.recruit draw memory limit reporter = .ok (r, true)) ∧
    ∀ o' : Order, o'.count = o.count → o'.stagger = o.stagger →
      (∀ k, k < o.count → (o.script (k + 1)).AlikeUntilLogin (o'.script (k + 1))) →
      ∀ draw memory limit reporter r, o'.recruit draw memory limit reporter = .ok (r, true) →
        r.fleet.now = o.duration := by
  refine ⟨fun ms hms => Recruitment.inTurn hms, fun draw memory limit r done hr => ⟨?_, ?_⟩,
    fun hall draw memory limit hreserve hpos hlimit => ?_,
    fun o' hcount hstagger halike draw memory limit reporter r hr => ?_⟩
  · obtain ⟨ms, hms, -, hrun⟩ := exists_run_of_recruit hr
    exact ⟨ms, hms, hrun⟩
  · rintro rfl
    exact (o.doneAt_eq_some_iff _).mp (now_of_recruit hr)
  · exact recruit_of_doneAt draw hreserve ((o.doneAt_eq_some_iff _).mpr ⟨hall, rfl⟩)
      ⟨hpos, hlimit⟩
  · obtain ⟨-, hnow⟩ := (o'.doneAt_eq_some_iff _).mp (now_of_recruit hr)
    rw [hnow, duration_eq_of_alike hcount hstagger halike]

/-- Two bots: one is kicked before its login after three milliseconds, and the other, which is
started five milliseconds later, logs in after four more. -/
theorem joins_in_turn_mixed :
    let o : Order :=
      { target := ⟨"localhost", 25565, "1.21.4"⟩
        count := 2
        stagger := 5
        pace := none
        scripts := fun identity =>
          if identity = "Bot1" then { events := [(3, .kicked "full")] }
          else { events := [(4, .login), (2, .kicked "idle")] } }
    let start := Recruitment.start o
    let ms : List Recruitment.Move :=
      [.step, .act 0 .steady .work, .act 0 .steady .work, .pass 3, .act 0 .steady .report,
        .act 0 .steady .work, .step, .pass 5, .step, .step, .act 1 .steady .work,
        .act 1 .steady .work, .pass 4, .act 1 .steady .report, .act 1 .steady .work, .step]
    start.Prompt ms ∧ Recruitment.answeredAt 0 start ms = some 3 ∧
      Recruitment.connectedAt 1 start ms = some 8 ∧ Recruitment.finishedAt start ms = some 12 ∧
      Recruitment.InTurn o start ms ∧
      ∃ r, o.recruit .steady 1000 20 = .ok (r, true) ∧ r.fleet.now = 12 := by
  intro o start ms
  have hprompt : start.Prompt ms := by decide
  have hanswered : Recruitment.answeredAt 0 start ms = some 3 := by decide
  have hconnected : Recruitment.connectedAt 1 start ms = some 8 := by decide
  have hfinished : Recruitment.finishedAt start ms = some 12 := by decide
  obtain ⟨hturn, hreturn, hreaches, -⟩ := joins_in_turn o {}
  have hduration : o.AllAnswer ∧ 12 = o.duration := (hturn ms hprompt).whole 12 hfinished
  have hreserve : reserve 1000 o.count = .ok () := (reserve_eq_ok_iff 1000 2).mpr (by decide)
  obtain ⟨r, hr⟩ := hreaches hduration.1 .steady 1000 20 hreserve (by decide)
    (hduration.2 ▸ by decide)
  exact ⟨hprompt, hanswered, hconnected, hfinished, hturn ms hprompt, r, hr,
    ((hreturn _ _ _ r true hr).2 rfl).2.trans hduration.2.symm⟩

/-- A pause is never longer than thirty years, even if the stagger is. -/
theorem joins_before_long_stagger :
    let o : Order :=
      { target := ⟨"localhost", 25565, "1.21.4"⟩
        count := 2
        stagger := 1000000000000
        pace := none
        scripts := fun _ => { events := [(0, .login)] } }
    let start := Recruitment.start o
    let ms : List Recruitment.Move :=
      [.step, .act 0 .steady .work, .act 0 .steady .work, .act 0 .steady .report,
        .act 0 .steady .work, .step, .pass 946080000000, .step, .step, .act 1 .steady .work]
    start.Prompt ms ∧ Recruitment.answeredAt 0 start ms = some 0 ∧
      Recruitment.connectedAt 1 start ms = some 946080000000 ∧ 946080000000 < 0 + o.stagger := by
  decide

end Order

end BotFleet
