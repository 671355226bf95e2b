import BotFleet.Proofs.Session.Rest

/-!
# By when a session has brought everything about

* `Script.span`, `Script.lasts`: how long a client's reports take at most, and how long connecting
  and the reports take;
* `Session.DueBy`: by when all that a session waits for has come;
* **`Session.DueBy.step`**, `Session.DueBy.settle`: steps do not put it off;
* `Session.DueBy.pass`: a wait that passes over nothing does not put it off;
* `Session.exists_dueBy`: there always is such an instant.
-/

namespace BotFleet

namespace Script

/-- How long some events take at most, one after the other. -/
def spanOf (events : List (Nat × Client.Event)) : Nat :=
  events.foldr (fun e n => min e.1 Clock.longestSleep + n) 0

/-- How long the reports of an open client take at most. -/
def span (s : Script) : Nat := spanOf s.events

/-- How long connecting and the reports take at most. -/
def lasts (s : Script) : Nat :=
  match s.opening with
  | some (delay, _) => min delay Clock.longestSleep + s.span
  | none => 0

theorem schedule_le (closes : Bool) (events : List (Nat × Client.Event)) :
    ∀ now, ∀ x ∈ schedule closes now events, x.1 ≤ now + spanOf events := by
  induction events with
  | nil =>
    intro now x hx
    cases closes with
    | false => cases hx
    | true => cases List.mem_singleton.mp hx; exact Nat.le_refl now
  | cons e events ih =>
    intro now x hx
    have hspan : spanOf (e :: events) = min e.1 Clock.longestSleep + spanOf events := rfl
    rcases List.mem_cons.mp hx with rfl | hx
    · rw [hspan, Clock.wake]
      omega
    · have hle := ih _ x hx
      rw [Clock.wake] at hle
      omega

theorem feed_le (s : Script) (opened : Nat) : ∀ x ∈ s.feed opened, x.1 ≤ opened + s.span :=
  schedule_le s.closes s.events opened

end Script

namespace Session

/-- By when all that a session waits for has come. -/
structure DueBy (s : Session) (t : Nat) : Prop where
  clock : s.clock ≤ t
  fresh : s.phase = .fresh → s.clock + s.script.lasts ≤ t
  connecting : ∀ due, s.phase = .connecting (some due) →
    due + s.script.span ≤ t ∧ s.clock + s.script.span ≤ t
  running : s.phase = .running → ∀ x ∈ s.feed, x.1 ≤ t

variable {s : Session} {t : Nat}

theorem dueBy_of_isOver (hc : s.clock ≤ t) (ho : s.phase.isOver = true) : s.DueBy t := by
  refine ⟨hc, fun hp => ?_, fun due hp => ?_, fun hp => ?_⟩ <;> rw [hp] at ho <;> cases ho

theorem DueBy.congr {s' : Session} (h : s.DueBy t) (hc : s'.clock = s.clock)
    (hp : s'.phase = s.phase) (hscript : s'.script = s.script) (hf : ∀ x ∈ s'.feed, x ∈ s.feed) :
    s'.DueBy t := by
  refine ⟨?_, ?_, ?_, ?_⟩
  · rw [hc]; exact h.clock
  · rw [hc, hp, hscript]; exact h.fresh
  · rw [hc, hp, hscript]; exact h.connecting
  · rw [hp]; exact fun hr x hx => h.running hr x (hf x hx)

theorem Worked.dueBy {s' : Session} {o? : Option Occurrence} {es : List Effect}
    (hc : s.Coherent) (hw : Worked s o? s' es) (h : s.DueBy t) : s'.DueBy t := by
  cases hw with
  | idle => exact h
  | begun hp _ =>
    refine ⟨h.clock, nofun, fun due hdue => ?_, nofun⟩
    obtain ⟨o, ho, rfl⟩ := Option.map_eq_some_iff.mp (Phase.connecting.inj hdue)
    have hlasts : s.script.lasts = min o.1 Clock.longestSleep + s.script.span := by
      rw [Script.lasts, ho]
    have hle := h.fresh hp
    rw [hlasts] at hle
    show Clock.wake s.clock o.1 + s.script.span ≤ t ∧ s.clock + s.script.span ≤ t
    rw [Clock.wake]
    omega
  | opened due delay _ hp _ ho _ =>
    have hdue := (hc.connecting hp).2
    rw [ho] at hdue
    obtain ⟨d, rfl⟩ := Option.isSome_iff_exists.mp hdue
    have hle := (h.connecting d hp).2
    refine ⟨h.clock, nofun, nofun, fun _ x hx => ?_⟩
    exact Nat.le_trans (s.script.feed_le s.clock x hx) hle
  | noted | spawned | loggedIn => exact h.congr rfl rfl rfl fun _ hx => hx
  | stoppedEarly | stopped | refused | crashed | ended => exact dueBy_of_isOver h.clock rfl

/-- **Steps do not put off what a session waits for.** -/
theorem DueBy.step (h : s.DueBy t) (hc : s.Coherent) (draw : Draw) (task : Task) :
    (s.step draw task).1.DueBy t := by
  cases task with
  | work => exact (step_work hc draw).dueBy hc h
  | report =>
    rcases step_report s draw with ⟨-, hs⟩ | ⟨due, r, rest, -, hf, -, hs⟩ <;> rw [hs]
    · exact h
    · exact h.congr rfl rfl rfl fun x hx => hf ▸ List.mem_cons_of_mem _ hx
  | routine task =>
    rcases step_routine s draw task with ⟨-, hs⟩ | ⟨r, -, -, hs⟩ <;> rw [hs]
    · exact h
    · exact h.congr rfl rfl rfl fun x hx => hx

theorem DueBy.steps (h : s.DueBy t) (hc : s.Coherent) (draw : Draw) (tasks : List Task) :
    (s.steps draw tasks).1.DueBy t := by
  induction tasks generalizing s with
  | nil => exact h
  | cons task tasks ih => exact ih (h.step hc draw task) (coherent_step hc draw task)

theorem DueBy.settle (h : s.DueBy t) (hc : s.Coherent) (draw : Draw) :
    (s.settle draw).1.DueBy t := by
  obtain ⟨tasks, -, htasks⟩ := settle_eq_steps hc draw
  rw [htasks]
  exact h.steps hc draw tasks

/-! ## Waiting -/

/-- What the work of a session waits for: the end of connecting, or the next report. -/
def Expects (s : Session) (due : Nat) : Prop :=
  s.phase = .connecting (some due) ∨ s.phase = .running ∧ s.feed.head?.map Prod.fst = some due

theorem exists_wait_le {due : Nat} (h : s.Expects due) (hlt : s.clock < due) :
    ∃ d, s.wait? = some d ∧ s.clock + d ≤ due := by
  have hwait : ∃ d, s.wait? = some d ∧ d ≤ due - s.clock := by
    rcases h with hp | ⟨hp, hf⟩
    · rw [wait?, hp]
      exact exists_min?_le (List.mem_append_left _ (List.mem_singleton.mpr rfl))
    · obtain ⟨x, hx, rfl⟩ := Option.map_eq_some_iff.mp hf
      rw [wait?, hp, hx]
      exact exists_min?_le (List.mem_append_left _ (List.mem_singleton.mpr rfl))
  obtain ⟨d, hd, hle⟩ := hwait
  exact ⟨d, hd, by omega⟩

theorem DueBy.pass (h : s.DueBy t) {due : Nat} (he : s.Expects due) {d : Nat}
    (hd : s.clock + d ≤ due) : (s.pass d).DueBy t := by
  rcases he with hp | ⟨hp, hf⟩
  · obtain ⟨hdue, -⟩ := h.connecting due hp
    refine ⟨?_, fun hp' => ?_, fun due' hp' => ?_, fun hp' => ?_⟩
    · exact Nat.le_trans hd (Nat.le_trans (Nat.le_add_right ..) hdue)
    · cases hp.symm.trans hp'
    · cases hp.symm.trans hp'
      exact ⟨hdue, Nat.le_trans (Nat.add_le_add_right hd _) hdue⟩
    · cases hp.symm.trans hp'
  · obtain ⟨x, hx, rfl⟩ := Option.map_eq_some_iff.mp hf
    have hmem := List.mem_of_mem_head? hx
    refine ⟨?_, fun hp' => ?_, fun due' hp' => ?_, fun hp' => ?_⟩
    · exact Nat.le_trans hd (h.running hp x hmem)
    · cases hp.symm.trans hp'
    · cases hp.symm.trans hp'
    · exact h.running hp

/-- There always is an instant by which all that a session waits for has come. -/
theorem exists_dueBy (s : Session) : ∃ t, s.DueBy t := by
  have hfeed (feed : List (Nat × Report)) : ∃ b, ∀ x ∈ feed, x.1 ≤ b := by
    induction feed with
    | nil => exact ⟨0, by simp⟩
    | cons y feed ih =>
      obtain ⟨b, hb⟩ := ih
      refine ⟨y.1 + b, fun x hx => ?_⟩
      rcases List.mem_cons.mp hx with rfl | hx
      · exact Nat.le_add_right ..
      · exact Nat.le_trans (hb x hx) (Nat.le_add_left ..)
  cases hp : s.phase with
  | fresh => exact ⟨s.clock + s.script.lasts, Nat.le_add_right .., fun _ => Nat.le_refl _,
      by simp [hp], by simp [hp]⟩
  | connecting due =>
    refine ⟨s.clock + due.getD 0 + s.script.span, by omega, by simp [hp], fun d hd => ?_,
      by simp [hp]⟩
    cases hp.symm.trans hd
    simp only [Option.getD_some]
    omega
  | running =>
    obtain ⟨b, hb⟩ := hfeed s.feed
    exact ⟨s.clock + b, Nat.le_add_right .., by simp [hp], by simp [hp], fun _ x hx =>
      Nat.le_trans (hb x hx) (Nat.le_add_left ..)⟩
  | finished | crashed => exact ⟨s.clock, dueBy_of_isOver (Nat.le_refl _) (by rw [hp]; rfl)⟩

end Session

end BotFleet
