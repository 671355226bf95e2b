import BotFleet.Proofs.Fleet.Schedule
import BotFleet.Proofs.Seat.Intact
import BotFleet.Run.Basic

/-!
# What can crash in a run

A plan is made of settings whose intervals are not zero, so that every ticker starts. The number of
bots has no upper bound, and room for the results of all is reserved in advance.

* `Order.reserve_eq_overflow_iff`: for how many bots the results are more than can be reserved;
* `Plan.sound_pace`: the intervals of a plan;
* **`Recruitment.Sound.spared_run`**: the recruiting spares its sessions;
* **`Plan.only_capacity_crashes`**: nothing else can crash;
* `Plan.capacity_overflows`: with some settings the recruiter does crash.
-/

namespace BotFleet

namespace Order

/-! ## Room for the results -/

/-- The recruiter crashes if the records are too many at once, or if there is room for them and the
handles are too many. -/
theorem reserve_eq_overflow_iff (memory count : Nat) : reserve memory count = .error .overflow ↔
    maxBytes < count * recordBytes ∨
      count * recordBytes ≤ memory ∧ maxBytes < count * handleBytes := by
  unfold reserve reserveBytes
  by_cases hmax : maxBytes < count * recordBytes
  · simp [hmax, bind, Except.bind]
  · by_cases hmemory : memory < count * recordBytes
    · simp [hmax, hmemory, Nat.not_le_of_lt hmemory, bind, Except.bind]
    · have hroom := Nat.le_of_not_lt hmemory
      by_cases hmax' : maxBytes < count * handleBytes
      · simp [hmax, hmemory, hmax', hroom, bind, Except.bind]
      · by_cases hmemory' : memory - count * recordBytes < count * handleBytes <;>
          simp [hmax, hmemory, hmax', hmemory', bind, Except.bind, pure, Except.pure]

variable {o : Order} {draw : Draw} {memory limit : Nat} {reporter : Reporter}

theorem recruit_eq_error_iff {e : ReserveError} :
    o.recruit draw memory limit reporter = .error e ↔ reserve memory o.count = .error e := by
  rw [recruit]
  cases reserve memory o.count with
  | error e' => simp [bind, Except.bind]
  | ok => simp [bind, Except.bind, pure, Except.pure]

end Order

/-! ## The recruiting -/

namespace Recruitment

/-- The clients are still calm after a move. -/
def Move.Calm : Move → Prop
  | .change _ responses => responses.Calm
  | _ => True

variable {o : Order} {reporter : Reporter} {r : Recruitment}

theorem Sound.spared_step (h : r.Sound o reporter) (hpace : ∀ p ∈ o.pace, p.Sound)
    (hcalm : ∀ i, (o.script i).Calm) (hspared : r.fleet.Spared) : r.step.fleet.Spared := by
  cases hp : r.phase with
  | starting i =>
    intro seat hseat
    rw [(launched hp).seats, List.mem_append, List.mem_singleton] at hseat
    rcases hseat with hseat | rfl
    · exact hspared seat hseat
    · rw [h.order]
      exact Seat.spared_fresh _ _ hpace (hcalm i)
  | awaiting i =>
    have hin := h.inStep.awaiting hp
    obtain ⟨seat, hseat⟩ : ∃ seat, r.fleet.seats[i - 1]? = some seat :=
      ⟨_, List.getElem?_eq_getElem (by omega)⟩
    cases hv : seat.answer with
    | none =>
      rw [Recruitment.step, hp]
      simp only [Fleet.pollLogin_eq hseat, hv]
      exact hspared
    | some v =>
      have hasked : (r.fleet.move (.ask (i - 1))).Spared := hspared.move trivial
      intro seat' hseat'
      rw [(recorded_step hp hseat hv).seats] at hseat'
      exact hasked seat' hseat'
  | pausing i due =>
    rw [Recruitment.step, hp]
    dsimp only
    split <;> exact hspared
  | done =>
    rw [Recruitment.step, hp]
    exact hspared

/-- **The recruiting spares its sessions**, whatever happens. -/
theorem Sound.spared_run (h : r.Sound o reporter) (hpace : ∀ p ∈ o.pace, p.Sound)
    (hcalm : ∀ i, (o.script i).Calm) (hspared : r.fleet.Spared) {ms : List Move}
    (hms : ∀ m ∈ ms, m.Calm) : (r.run ms).fleet.Spared := by
  induction ms generalizing r with
  | nil => exact hspared
  | cons m ms ih =>
    obtain ⟨hm, hms⟩ := List.forall_mem_cons.mp hms
    refine ih (h.run [m]) ?_ hms
    cases m with
    | step => exact h.spared_step hpace hcalm hspared
    | act i draw task => exact hspared.move (m := .act i draw task) trivial
    | change i responses => exact hspared.move (m := .change i responses) hm
    | pass ms => exact hspared.move (m := .pass ms) trivial

end Recruitment

/-! ## Plans -/

namespace Plan

theorem positive_eq_ok {s : Setting} {ms : UInt64} {n : Nat} (h : positive s ms = .ok n) :
    0 < n ∧ n < UInt64.size := by
  unfold positive at h
  split at h
  · cases h
  · rename_i hne
    cases h
    exact ⟨Nat.pos_of_ne_zero fun hzero => hne (UInt64.toNat.inj hzero), ms.toNat_lt_size⟩

theorem sound_paceOf {settings : Settings} {pace : Option Pace}
    (h : paceOf settings = .ok pace) : ∀ p ∈ pace, p.Sound := by
  unfold paceOf at h
  dsimp only at h
  split at h
  · cases h
    exact nofun
  · cases hmove : positive .moveIntervalMs (settings .moveIntervalMs) with
    | error e => rw [hmove] at h; cases h
    | ok move =>
      cases hduration : positive .moveDurationMs (settings .moveDurationMs) with
      | error e => rw [hmove, hduration] at h; cases h
      | ok duration =>
        cases hchat : positive .chatIntervalMs (settings .chatIntervalMs) with
        | error e => rw [hmove, hduration, hchat] at h; cases h
        | ok chat =>
          rw [hmove, hduration, hchat] at h
          cases h
          rintro p hp
          obtain rfl := Option.some.inj hp
          obtain ⟨hpos, hword⟩ := positive_eq_ok hmove
          obtain ⟨hpos', hword'⟩ := positive_eq_ok hchat
          exact ⟨hpos, hword, hpos', hword'⟩

theorem sound_pace {settings : Settings} {plan : Plan} (h : ofSettings settings = .ok plan) :
    ∀ p ∈ plan.pace, p.Sound := by
  unfold ofSettings at h
  dsimp only at h
  split at h
  · cases h
  · split at h
    · cases h
    · cases hpace : paceOf settings with
      | error e => simp [hpace] at h
      | ok pace =>
        rw [hpace] at h
        cases h
        exact sound_paceOf hpace

/-- **Nothing but the number of bots crashes a run.** For all settings that make a plan, and clients
that bring nothing down:

* the recruiter crashes exactly if the records of all bots are more than can be reserved at once, or
  if there is room for them and the handles are too many;
* whatever happens while the bots are recruited and after that, no session crashes, and the routine
  of none, as long as its clock leaves room for the longest period;
* the same holds of a recruiting in time. -/
theorem only_capacity_crashes {settings : Settings} {plan : Plan}
    (hplan : ofSettings settings = .ok plan) {scripts : String → Script}
    (hcalm : ∀ identity, (scripts identity).Calm) :
    let o := plan.order scripts
    (∀ draw memory limit reporter, o.recruit draw memory limit reporter = .error .overflow ↔
      Order.maxBytes < plan.bots * Order.recordBytes ∨
        plan.bots * Order.recordBytes ≤ memory ∧
          Order.maxBytes < plan.bots * Order.handleBytes) ∧
      (∀ reporter, ∀ ms : List Recruitment.Move, (∀ m ∈ ms, m.Calm) →
        ∀ later : List Fleet.Move, (∀ m ∈ later, m.Calm) →
        ∀ seat ∈ (((Recruitment.start o reporter).run ms).fleet.run later).seats,
          seat.session.clock + UInt64.size ≤ Clock.last → seat.session.Intact) ∧
      ∀ draw memory limit reporter r done,
        o.recruit draw memory limit reporter = .ok (r, done) →
        ∀ later : List Fleet.Move, (∀ m ∈ later, m.Calm) →
        ∀ seat ∈ (r.fleet.run later).seats,
          seat.session.clock + UInt64.size ≤ Clock.last → seat.session.Intact := by
  intro o
  have hpace : ∀ p ∈ o.pace, p.Sound := sound_pace hplan
  have hspared (reporter) {ms : List Recruitment.Move} (hms : ∀ m ∈ ms, m.Calm) :
      ((Recruitment.start o reporter).run ms).fleet.Spared :=
    (Recruitment.sound_start o reporter).spared_run hpace (fun i => hcalm (identityOf i))
      (by simp [Fleet.Spared, Recruitment.start]) hms
  refine ⟨fun draw memory limit reporter => ?_, fun reporter ms hms later hlater seat hseat =>
    (((hspared reporter hms).run hlater) seat hseat).intact,
    fun draw memory limit reporter r done hr later hlater seat hseat => ?_⟩
  · exact Order.recruit_eq_error_iff.trans (Order.reserve_eq_overflow_iff memory plan.bots)
  · obtain ⟨ms, -, hchange, rfl⟩ := Order.exists_run_of_recruit hr
    have hms (m) (hm : m ∈ ms) : m.Calm := by
      cases m with
      | change i responses => exact absurd hm (hchange i responses)
      | _ => trivial
    exact (((hspared reporter hms).run hlater) seat hseat).intact

/-- The settings of five bots, each of which spawns and logs in: no recruiting crashes, and no bot. -/
theorem only_capacity_crashes_default :
    let scripts : String → Script := fun _ => { events := [(1, .spawn), (1, .login)] }
    ∃ plan, ofSettings Chosen.empty.withDefaults = .ok plan ∧
      (∀ identity, (scripts identity).Calm) ∧
      (∀ draw memory limit, (plan.order scripts).recruit draw memory limit ≠ .error .overflow) ∧
      ∀ ms : List Recruitment.Move, (∀ m ∈ ms, m.Calm) →
        ∀ seat ∈ ((Recruitment.start (plan.order scripts)).run ms).fleet.seats,
          seat.session.clock + UInt64.size ≤ Clock.last → seat.session.Intact := by
  intro scripts
  have hcalm (identity) : (scripts identity).Calm :=
    ⟨nofun, ⟨nofun, nofun, nofun, nofun, nofun⟩⟩
  obtain ⟨plan, hplan, hbots⟩ :
      ∃ plan, ofSettings Chosen.empty.withDefaults = .ok plan ∧ plan.bots = 5 := ⟨_, rfl, rfl⟩
  obtain ⟨hcrash, hrun, -⟩ := only_capacity_crashes hplan hcalm
  refine ⟨plan, hplan, hcalm, fun draw memory limit => ?_, fun ms hms => ?_⟩
  · rw [ne_eq, hcrash, hbots]
    rintro (hmax | ⟨-, hmax⟩) <;> exact absurd hmax (by decide)
  · exact hrun {} ms hms [] (by simp)

/-- The recruiter crashes with a number of bots that is accepted. -/
theorem capacity_overflows :
    let settings := (Chosen.empty.set .bots (164703072086692426 : UInt64)).withDefaults
    let scripts : String → Script := fun _ => { opening := none }
    ∃ plan, ofSettings settings = .ok plan ∧ (∀ identity, (scripts identity).Calm) ∧
      ∀ draw memory limit, (plan.order scripts).recruit draw memory limit = .error .overflow := by
  intro settings scripts
  obtain ⟨plan, hplan, hbots⟩ : ∃ plan,
      ofSettings (Chosen.empty.set .bots (164703072086692426 : UInt64)).withDefaults = .ok plan ∧
        plan.bots = 164703072086692426 := ⟨_, rfl, rfl⟩
  refine ⟨plan, hplan, fun _ => ⟨nofun, ⟨nofun, nofun, nofun, nofun, nofun⟩⟩,
    fun draw memory limit => Order.recruit_eq_error_iff.mpr ?_⟩
  have hreserve : Order.reserve memory plan.bots = .error .overflow := by
    rw [hbots, Order.reserve_eq_overflow_iff]
    exact .inl (by decide)
  exact hreserve

end Plan

end BotFleet
