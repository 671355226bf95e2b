import BotFleet.Proofs.Clock.Simulation
import BotFleet.Proofs.Fleet.Recruiting
import BotFleet.Proofs.Session.Deadline

/-!
# The recruiting comes to its end

* `Order.lasts`: how long the last so many bots take at most;
* `Recruitment.DueBy`: by when the recruiting is done;
* `Recruitment.rank`, **`Recruitment.settleIn_rests`**: at each instant the recruiter takes all the
  steps that it can, and then nothing can be done;
* `Recruitment.Sound.progress`: as long as it is not done, something lies ahead, and a wait for it
  does not put off the end;
* **`Recruitment.Sound.reaches`**: the recruiting comes to its end, whatever happened before;
* **`Order.recruit_complete`**: the law of the recruiting.
-/

namespace BotFleet

namespace Order

/-- How long the pause between two bots is. -/
def pause (o : Order) : Nat := min o.stagger Clock.longestSleep

/-- How long the last so many bots take at most, with a pause after each. -/
def lasts (o : Order) : Nat → Nat
  | 0 => 0
  | k + 1 => (o.script (o.count - k)).lasts + o.pause + o.lasts k

theorem lasts_of_le (o : Order) {i : Nat} (h : i ≤ o.count) :
    o.lasts (o.count + 1 - i) = (o.script i).lasts + o.pause + o.lasts (o.count - i) := by
  have hk : o.count + 1 - i = (o.count - i) + 1 := by omega
  have hi : o.count - (o.count - i) = i := by omega
  rw [hk, lasts, hi]

end Order

namespace Recruitment

/-- By when the recruiting is done. -/
def DueBy (r : Recruitment) (last : Nat) : Prop :=
  match r.phase with
  | .starting i => r.fleet.now + r.order.lasts (r.order.count + 1 - i) ≤ last
  | .awaiting i => ∃ seat t, r.fleet.seats[i - 1]? = some seat ∧ seat.session.DueBy t ∧
      r.fleet.now + t + r.order.pause + r.order.lasts (r.order.count - i) ≤
        last + seat.session.clock
  | .pausing i due => r.fleet.now + r.order.lasts (r.order.count - i) ≤ last ∧
      due + r.order.lasts (r.order.count - i) ≤ last
  | .done => True

/-- How many steps the recruiter still has to take. -/
def rank (r : Recruitment) : Nat :=
  match r.phase with
  | .starting i => 3 * (r.order.count + 1 - i)
  | .awaiting i => 3 * (r.order.count + 1 - i) - 1
  | .pausing i _ => 3 * (r.order.count + 1 - i) - 2
  | .done => 0

theorem rank_le_remaining (r : Recruitment) : r.rank ≤ 3 * r.remaining := by
  unfold rank remaining
  cases r.phase <;> simp only <;> omega

variable {o : Order} {reporter : Reporter} {r : Recruitment} {last : Nat}

theorem Sound.done_of_rank (h : r.Sound o reporter) (hrank : r.rank = 0) : r.phase = .done := by
  unfold Recruitment.rank at hrank
  cases hp : r.phase with
  | starting i =>
    have hin := h.inStep.starting hp
    simp only [hp] at hrank
    omega
  | awaiting i =>
    have hin := h.inStep.awaiting hp
    simp only [hp] at hrank
    omega
  | pausing i due =>
    have hin := h.inStep.pausing hp
    simp only [hp] at hrank
    omega
  | done => rfl

theorem Sound.awaited (h : r.Sound o reporter) {i : Nat} (hp : r.phase = .awaiting i) :
    ∃ seat, r.fleet.seats[i - 1]? = some seat ∧ o.Serves i seat ∧
      r.ready = seat.answer.isSome := by
  have hin := h.inStep.awaiting hp
  obtain ⟨seat, hseat⟩ : ∃ seat, r.fleet.seats[i - 1]? = some seat :=
    ⟨_, List.getElem?_eq_getElem (by omega)⟩
  have hi : i - 1 + 1 = i := by omega
  have hserves := h.serves (i - 1) seat hseat
  rw [hi] at hserves
  refine ⟨seat, hseat, hserves, ?_⟩
  rw [ready, hp]
  simp only [Fleet.pollLogin_eq hseat]

/-- The recruiter can take a step, which lowers its rank and does not put off the end. -/
structure Lowers (r r' : Recruitment) (last : Nat) : Prop where
  rank : r'.rank < r.rank
  dueBy : r'.DueBy last
  now : r'.fleet.now = r.fleet.now

theorem Launched.lowers {i : Nat} (hp : r.phase = .starting i) (hi : i ≤ r.order.count)
    (hlength : r.fleet.seats.length + 1 = i) (hd : r.DueBy last) {r' : Recruitment}
    (hl : Launched r i r') : Lowers r r' last := by
  unfold DueBy at hd
  rw [hp] at hd
  simp only [r.order.lasts_of_le hi] at hd
  refine ⟨?_, ?_, hl.now⟩
  · unfold Recruitment.rank
    rw [hl.phase, hp, hl.order]
    simp only
    omega
  · unfold DueBy
    rw [hl.phase, hl.order, hl.now]
    refine ⟨r.order.seat r.fleet.now i, (r.order.script i).lasts, ?_, ?_, ?_⟩
    · have hlast : i - 1 = r.fleet.seats.length := by omega
      rw [hl.seats, hlast]
      exact List.getElem?_concat_length
    · exact ⟨Nat.zero_le _, fun _ => Nat.le_of_eq (Nat.zero_add _), nofun, nofun⟩
    · show r.fleet.now + _ + _ + _ ≤ last + 0
      omega

theorem Recorded.lowers {i : Nat} {v : Verdict} {f : Fleet} {r' : Recruitment}
    (hp : r.phase = .awaiting i) (hi : i ≤ r.order.count) (hd : r.DueBy last)
    (hnow : f.now = r.fleet.now) (hr : Recorded { r with fleet := f } i v r') :
    Lowers r r' last := by
  unfold DueBy at hd
  rw [hp] at hd
  obtain ⟨seat, t, -, hdue, hlast⟩ := hd
  have hclock := hdue.clock
  have horder : r'.order = r.order := hr.order
  have hpause : Clock.wake f.now r.order.stagger = r.fleet.now + r.order.pause := by
    rw [hnow]
    rfl
  refine ⟨?_, ?_, hr.now.trans hnow⟩
  · unfold Recruitment.rank
    rw [hp]
    rcases hr.phase with ⟨-, hphase⟩ | ⟨-, hphase⟩ <;> rw [hphase]
    · rw [horder]
      simp only
      omega
    · simp only
      omega
  · unfold DueBy
    rcases hr.phase with ⟨-, hphase⟩ | ⟨-, hphase⟩ <;> rw [hphase]
    · rw [horder, hr.now.trans hnow, hpause]
      exact ⟨by omega, by omega⟩
    · trivial

theorem resumed_lowers {i due : Nat} (hp : r.phase = .pausing i due) (hi : i < r.order.count)
    (hd : r.DueBy last) : Lowers r { r with phase := .starting (i + 1) } last := by
  unfold DueBy at hd
  rw [hp] at hd
  refine ⟨?_, ?_, rfl⟩
  · unfold Recruitment.rank
    rw [hp]
    simp only
    omega
  · show r.fleet.now + r.order.lasts (r.order.count + 1 - (i + 1)) ≤ last
    rw [Nat.add_sub_add_right]
    exact hd.1

/-- **A step that the recruiter can take lowers its rank and does not put off the end.** -/
theorem Sound.lowers (h : r.Sound o reporter) (hd : r.DueBy last) (hr : r.ready = true) :
    Lowers r r.step last := by
  cases hp : r.phase with
  | starting i =>
    have hin := h.inStep.starting hp
    exact (launched hp).lowers hp hin.2.2 hin.1 hd
  | awaiting i =>
    have hin := h.inStep.awaiting hp
    obtain ⟨seat, hseat, -, hready⟩ := h.awaited hp
    rw [hr] at hready
    obtain ⟨v, hv⟩ := Option.isSome_iff_exists.mp hready.symm
    exact (recorded_step hp hseat hv).lowers hp hin.2.2 hd (now_ask ..)
  | pausing i due =>
    have hin := h.inStep.pausing hp
    have hdue : due ≤ r.fleet.now := by simpa [ready, hp] using hr
    have hstep : r.step = { r with phase := .starting (i + 1) } := by
      rw [Recruitment.step, hp]
      exact if_pos hdue
    rw [hstep]
    exact resumed_lowers hp hin.2.2 hd
  | done => rw [ready, hp] at hr; cases hr

/-! ## An instant -/

theorem Sound.coherent (h : r.Sound o reporter) : r.fleet.Coherent := by
  intro seat hseat
  obtain ⟨k, hk⟩ := List.mem_iff_getElem?.mp hseat
  exact (h.serves k seat hk).coherent

theorem Sound.dueBy_settle (h : r.Sound o reporter) (hd : r.DueBy last) (draw : Draw) :
    { r with fleet := r.fleet.settle draw }.DueBy last := by
  unfold DueBy at hd ⊢
  cases hp : r.phase with
  | awaiting i =>
    rw [hp] at hd
    obtain ⟨seat, t, hseat, hdue, hlast⟩ := hd
    have hc := h.coherent seat (List.mem_of_getElem? hseat)
    obtain ⟨tasks, -, htasks⟩ := Session.settle_eq_steps hc draw
    have hclock : (seat.session.settle draw).1.clock = seat.session.clock := by
      rw [htasks]
      exact Session.clock_steps hc draw tasks
    refine ⟨seat.advance (seat.session.settle draw), t, ?_, hdue.settle hc draw, ?_⟩
    · rw [Fleet.seats_settle, List.getElem?_map, hseat]
      rfl
    · show _ ≤ last + (seat.session.settle draw).1.clock
      rw [hclock]
      exact hlast
  | _ => rw [hp] at hd; exact hd

/-- The recruiting is at rest: nothing can be done at this instant. -/
structure Rests (r : Recruitment) : Prop where
  fleet : r.fleet.AtRest
  ready : r.ready = false

/-- **At each instant the recruiter takes all the steps that it can, and then nothing can be
done.** -/
theorem settleIn_rests (draw : Draw) {fuel : Nat} (h : r.Sound o reporter) (hd : r.DueBy last)
    (hrank : r.rank ≤ fuel) : (settleIn draw fuel r).Sound o reporter ∧
      (settleIn draw fuel r).DueBy last ∧ (settleIn draw fuel r).Rests ∧
      (settleIn draw fuel r).fleet.now = r.fleet.now := by
  induction fuel generalizing r with
  | zero =>
    have hdone := h.done_of_rank (Nat.le_zero.mp hrank)
    refine ⟨h.goes (Fleet.goes_settle h.coherent draw), h.dueBy_settle hd draw, ?_, rfl⟩
    refine ⟨Fleet.atRest_settle h.coherent draw, ?_⟩
    show ready { r with fleet := r.fleet.settle draw } = false
    rw [ready, hdone]
  | succ fuel ih =>
    have hsettled := h.goes (Fleet.goes_settle h.coherent draw)
    have hdue := h.dueBy_settle hd draw
    rw [settleIn]
    cases hready : ready { r with fleet := r.fleet.settle draw } with
    | true =>
      have hlow := hsettled.lowers hdue hready
      obtain ⟨hsound, hlast, hrests, hnow⟩ := ih hsettled.step hlow.dueBy
        (Nat.le_of_lt_succ (Nat.lt_of_lt_of_le hlow.rank hrank))
      exact ⟨hsound, hlast, hrests, hnow.trans hlow.now⟩
    | false => exact ⟨hsettled, hdue, ⟨Fleet.atRest_settle h.coherent draw, hready⟩, rfl⟩

theorem settle_rests (draw : Draw) (h : r.Sound o reporter) (hd : r.DueBy last) :
    ((timed draw).settle r).Sound o reporter ∧ ((timed draw).settle r).DueBy last ∧
      ((timed draw).settle r).Rests ∧ ((timed draw).settle r).fleet.now = r.fleet.now :=
  settleIn_rests draw h hd r.rank_le_remaining

/-! ## Waiting -/

theorem exists_expects {i : Nat} {seat : Seat} (h : o.Serves i seat) (hsettles : o.Settles i)
    (hrest : seat.session.AtRest) (hnone : seat.answer = none) :
    ∃ due, seat.session.Expects due ∧ seat.session.clock < due := by
  obtain ⟨seen, hfollows, hstop, hscript, rest, hrestOf⟩ := h.follows
  obtain ⟨v, hv⟩ := hsettles.exists_verdict
  rw [hfollows.answer_eq] at hnone
  rcases (hfollows.awaits hrest hnone).2 with ⟨due, hp, hahead⟩ | ⟨hp, hall, hahead⟩
  · cases due with
    | some due => exact ⟨due, .inl hp, hahead due rfl⟩
    | none =>
      -- connecting that never ends brings no verdict about
      have hopening := (hfollows.coherent.connecting hp).2
      rw [hscript] at hopening
      have hnever : (o.script i).opening = none := by simpa using hopening.symm
      rw [Script.verdict?, Script.occurrences, hnever] at hv
      cases hv
  · cases hf : seat.session.feed with
    | cons x feed => exact ⟨x.1, .inr ⟨hp, by rw [hf]; rfl⟩, hahead x (hf ▸ List.mem_cons_self)⟩
    | nil =>
      -- a session that has seen everything has seen what decides
      rw [hf, List.map_nil, List.append_nil, hscript] at hall
      rw [Script.verdict?, ← hall, hnone] at hv
      cases hv

theorem dueBy_pass_of_expects {i : Nat} (hp : r.phase = .awaiting i)
    {seat : Seat} (hseat : r.fleet.seats[i - 1]? = some seat) {due : Nat}
    (hexpects : seat.session.Expects due) (hd : r.DueBy last) {d : Nat}
    (hle : seat.session.clock + d ≤ due) :
    r.fleet.now + d ≤ last ∧ { r with fleet := r.fleet.pass d }.DueBy last := by
  unfold DueBy at hd ⊢
  rw [hp] at hd
  obtain ⟨seat', t, hseat', hdue, hlast⟩ := hd
  rw [hseat] at hseat'
  cases hseat'
  have hpass := hdue.pass hexpects hle
  have hclock : seat.session.clock + d ≤ t := hpass.clock
  have hnow : (r.fleet.pass d).now = r.fleet.now + d := rfl
  refine ⟨by omega, ?_⟩
  simp only [hp]
  refine ⟨seat.move (.pass d), t, ?_, hpass, ?_⟩
  · rw [Fleet.pass, List.getElem?_map, hseat]
    rfl
  · show (r.fleet.now + d) + _ + _ + _ ≤ last + (seat.session.clock + d)
    omega

theorem dueBy_pass_of_pausing {i due : Nat} (hp : r.phase = .pausing i due) (hd : r.DueBy last)
    {d : Nat} (hle : r.fleet.now + d ≤ due) :
    r.fleet.now + d ≤ last ∧ { r with fleet := r.fleet.pass d }.DueBy last := by
  unfold DueBy at hd ⊢
  rw [hp] at hd
  have hnow : (r.fleet.pass d).now = r.fleet.now + d := rfl
  refine ⟨by omega, ?_⟩
  simp only [hp, hnow]
  exact ⟨by omega, hd.2⟩

/-- **As long as the recruiting is not done, something lies ahead**, and a wait for it does not put
off the end. -/
theorem Sound.progress (draw : Draw) (h : r.Sound o reporter)
    (hsettles : ∀ i, 1 ≤ i → i ≤ o.count → o.Settles i) (hd : r.DueBy last) (hrests : r.Rests)
    (hdone : r.isDone = false) : ∃ d, (timed draw).wait? r = some d ∧ 0 < d ∧
      r.fleet.now + d ≤ last ∧ ((timed draw).pass d r).DueBy last := by
  have hready := hrests.ready
  cases hp : r.phase with
  | starting i => rw [ready, hp] at hready; cases hready
  | done => rw [isDone, hp] at hdone; cases hdone
  | awaiting i =>
    have hin := h.inStep.awaiting hp
    obtain ⟨seat, hseat, hserves, hanswer⟩ := h.awaited hp
    have hnone : seat.answer = none := by
      rw [hready] at hanswer
      simpa using hanswer.symm
    have hmem := List.mem_of_getElem? hseat
    have hcount : i ≤ o.count := h.order ▸ hin.2.2
    obtain ⟨due, hexpects, hahead⟩ := exists_expects hserves (hsettles i (by omega) hcount)
      (hrests.fleet seat hmem) hnone
    obtain ⟨d, hwait, hle⟩ := Session.exists_wait_le hexpects hahead
    obtain ⟨d', hwait', hle'⟩ := Fleet.exists_wait_le hmem hwait
    have hpass := dueBy_pass_of_expects hp hseat hexpects hd (d := d') (by omega)
    refine ⟨d', ?_, Fleet.wait_pos hrests.fleet hwait', hpass⟩
    simp only [timed, hp]
    exact hwait'
  | pausing i due =>
    have hahead : r.fleet.now < due := by simpa [ready, hp] using hready
    obtain ⟨d, hwait, hpos, hle⟩ := Fleet.exists_sooner (Fleet.wait_pos hrests.fleet) hahead
    refine ⟨d, ?_, hpos, dueBy_pass_of_pausing hp hd hle⟩
    simp only [timed, hp]
    exact hwait

/-! ## The end -/

theorem Sound.exists_dueBy (h : r.Sound o reporter) : ∃ last, r.DueBy last := by
  unfold DueBy
  cases hp : r.phase with
  | starting i => exact ⟨_, Nat.le_refl _⟩
  | awaiting i =>
    obtain ⟨seat, hseat, -, -⟩ := h.awaited hp
    obtain ⟨t, hdue⟩ := seat.session.exists_dueBy
    exact ⟨_, seat, t, hseat, hdue, Nat.le_add_right ..⟩
  | pausing i due =>
    refine ⟨r.fleet.now + due + r.order.lasts (r.order.count - i), ?_, ?_⟩ <;> omega
  | done => exact ⟨0, trivial⟩

theorem Sound.settle (h : r.Sound o reporter) (draw : Draw) :
    ((timed draw).settle r).Sound o reporter := by
  obtain ⟨last, hd⟩ := h.exists_dueBy
  exact (settle_rests draw h hd).1

theorem Sound.pass (h : r.Sound o reporter) (draw : Draw) (ms : Nat) :
    ((timed draw).pass ms r).Sound o reporter :=
  h.goes (r.fleet.goes_move (m := .pass ms) rfl (by simp [Fleet.Move.target?]))

theorem Sound.await (h : r.Sound o reporter) (draw : Draw) (limit : Nat) :
    ((timed draw).await isDone limit r).1.Sound o reporter :=
  Timed.await_keeps (P := Sound o reporter) (fun _ h => h.settle draw)
    (fun ms _ h => h.pass draw ms) limit r h

/-- At each instant the recruiting gets done, or a wait brings it closer to its end. -/
theorem Sound.done_or_wait (h : r.Sound o reporter)
    (hsettles : ∀ i, 1 ≤ i → i ≤ o.count → o.Settles i) (draw : Draw) (hd : r.DueBy last) :
    isDone ((timed draw).settle r) = true ∨
      ∃ d, (timed draw).wait? ((timed draw).settle r) = some d ∧ 0 < d ∧ r.fleet.now + d ≤ last ∧
        ((timed draw).pass d ((timed draw).settle r)).fleet.now = r.fleet.now + d ∧
        ((timed draw).pass d ((timed draw).settle r)).Sound o reporter ∧
        ((timed draw).pass d ((timed draw).settle r)).DueBy last := by
  obtain ⟨hsound, hdue, hrests, hnow⟩ := settle_rests draw h hd
  cases hdone : isDone ((timed draw).settle r) with
  | true => exact .inl rfl
  | false =>
    obtain ⟨d, hwait, hpos, hlast, hnext⟩ := hsound.progress draw hsettles hdue hrests hdone
    rw [hnow] at hlast
    exact .inr ⟨d, hwait, hpos, hlast, congrArg (· + d) hnow, hsound.pass draw d, hnext⟩

/-- **The recruiting comes to its end**, whatever happened before. -/
theorem Sound.reaches (h : r.Sound o reporter)
    (hsettles : ∀ i, 1 ≤ i → i ≤ o.count → o.Settles i) (draw : Draw) :
    ∃ least, ∀ limit, least ≤ limit → ((timed draw).await isDone limit r).2 = true := by
  obtain ⟨last, hd⟩ := h.exists_dueBy
  have hstep (r : Recruitment) (hr : r.Sound o reporter ∧ r.DueBy last) :=
    hr.1.done_or_wait hsettles draw hr.2
  -- a wait without any time would see only what is there already
  refine ⟨last + 1, fun limit hlimit => ?_⟩
  rw [Timed.await, if_neg (by omega)]
  exact Timed.runUntil_reaches hstep limit r ⟨h, hd⟩ (by omega)

end Recruitment

namespace Order

variable {o : Order} {reporter : Reporter} {r : Recruitment}

theorem complete_of_await (h : r.Sound o reporter) (draw : Draw) {limit : Nat}
    (hdone : ((Recruitment.timed draw).await Recruitment.isDone limit r).2 = true) :
    ((Recruitment.timed draw).await Recruitment.isDone limit r).1.Complete o reporter :=
  (h.await draw limit).complete (Timed.done_of_await limit r hdone)

/-- **The law of the recruiting.** If there is room for the results and the login of each bot can be
settled, be it as a success or as a failure of any kind, then

* the recruiting comes to its end, if it may take long enough;
* whenever it does, it has recorded the login of every bot, in their order;
* the same holds however the steps of the recruiter and of all the sessions that it has started
  follow on each other: from wherever they lead, the recruiting comes to such an end. -/
theorem recruit_complete (o : Order) (reporter : Reporter) (draw : Draw) (memory : Nat)
    (hreserve : reserve memory o.count = .ok ())
    (hsettles : ∀ i, 1 ≤ i → i ≤ o.count → o.Settles i) :
    (∃ least, ∀ limit, least ≤ limit →
      ∃ r, o.recruit draw memory limit reporter = .ok (r, true) ∧ r.Complete o reporter) ∧
    (∀ limit r, o.recruit draw memory limit reporter = .ok (r, true) → r.Complete o reporter) ∧
    ∀ ms : List Recruitment.Move,
      let r := (Recruitment.start o reporter).run ms
      (r.isDone = true → r.Complete o reporter) ∧
        ∃ least, ∀ limit, least ≤ limit → ∃ r',
          (Recruitment.timed draw).await Recruitment.isDone limit r = (r', true) ∧
            r'.Complete o reporter := by
  have hstart := Recruitment.sound_start o reporter
  have hrecruit (limit : Nat) : o.recruit draw memory limit reporter =
      .ok ((Recruitment.timed draw).await Recruitment.isDone limit
        (Recruitment.start o reporter).step) := by
    rw [recruit, hreserve]
    rfl
  refine ⟨?_, fun limit r hr => ?_, ?_⟩
  · obtain ⟨least, hreaches⟩ := hstart.step.reaches hsettles draw
    refine ⟨least, fun limit hlimit => ?_⟩
    have hdone := hreaches limit hlimit
    exact ⟨_, (hrecruit limit).trans (congrArg Except.ok (Prod.ext rfl hdone)),
      complete_of_await hstart.step draw hdone⟩
  · have hresult := Except.ok.inj ((hrecruit limit).symm.trans hr)
    have hdone := congrArg Prod.snd hresult
    have hcomplete := complete_of_await hstart.step draw hdone
    rwa [hresult] at hcomplete
  · intro ms r
    have hsound : r.Sound o reporter := hstart.run ms
    obtain ⟨least, hreaches⟩ := hsound.reaches hsettles draw
    refine ⟨fun hdone => hsound.complete hdone, least, fun limit hlimit => ?_⟩
    have hdone := hreaches limit hlimit
    exact ⟨_, Prod.ext rfl hdone, complete_of_await hsound draw hdone⟩

/-- Three bots: one is kicked, one logs in, and connecting crashes for the last. -/
theorem recruit_complete_mixed :
    let o : Order :=
      { target := ⟨"localhost", 25565, "1.21.4"⟩
        count := 3
        stagger := 500
        pace := none
        scripts := fun identity =>
          if identity = "Bot1" then { events := [(5, .kicked "full")] }
          else if identity = "Bot2" then { events := [(0, .spawn), (9, .login)] }
          else { opening := some (3, .crashed "out of sockets") } }
    let reporter : Reporter := ⟨[⟨"Bot1", .success⟩]⟩
    reserve 1000 o.count = .ok () ∧ (∀ i, 1 ≤ i → i ≤ o.count → o.Settles i) ∧
      ∃ limit r, o.recruit .steady 1000 limit reporter = .ok (r, true) ∧
        r.Complete o reporter := by
  intro o reporter
  have hreserve : reserve 1000 o.count = .ok () := (reserve_eq_ok_iff 1000 3).mpr (by decide)
  have hsettles (i : Nat) (hi : 1 ≤ i) (hcount : i ≤ o.count) : o.Settles i := by
    have hthree : o.count = 3 := rfl
    obtain rfl | rfl | rfl : i = 1 ∨ i = 2 ∨ i = 3 := by omega
    · exact ⟨_, ⟨0, [.act .steady .work, .act .steady .work, .pass 5, .act .steady .report,
        .act .steady .work], by simp, rfl⟩, by decide⟩
    · exact ⟨_, ⟨0, [.act .steady .work, .act .steady .work, .act .steady .report,
        .act .steady .work, .pass 9, .act .steady .report, .act .steady .work], by simp, rfl⟩,
        by decide⟩
    · exact ⟨_, ⟨0, [.act .steady .work, .pass 3, .act .steady .work], by simp, rfl⟩, by decide⟩
  obtain ⟨least, hleast⟩ := (recruit_complete o reporter .steady 1000 hreserve hsettles).1
  exact ⟨hreserve, hsettles, least, hleast least (Nat.le_refl _)⟩

end Order

end BotFleet
