import BotFleet.Proofs.Routine.Series
import BotFleet.Proofs.Seat.Timely

/-!
# The ticks of a session

* `Session.Abides`: the routine of a session started with its first spawn, keeps to its pace since,
  and was cancelled when the session ended or was asked to stop;
* `Session.Abides.work`, `Session.Abides.turn`, `Session.Abides.pass`: it goes on so;
* **`Seat.abides_run`**: it does after every run in time;
* **`Seat.ticks_in_series`**: the law of the ticks.
-/

namespace BotFleet

namespace Routine

/-- The instants at which something of the routine is due. -/
def dues (r : Routine) : List Nat :=
  r.moving.due?.toList ++ r.chatting.due?.toList ++ r.releases

theorem Follows.ahead {r : Routine} {pace : Pace} {start now : Nat}
    {turns : Turn.Kind → List (Nat × Turn)} (h : r.Follows pace start turns none now) :
    ∀ due ∈ r.dues, now ≤ due := by
  have hactivity {period : Nat} {a : Activity} {ts : List (Nat × Turn)}
      (ha : a.Keeps start period none now ts) : ∀ due ∈ a.due?, now ≤ due := by
    intro due hdue
    cases ha with
    | running t _ _ _ hle => cases hdue; exact hle
    | idle | stopped | crashed => cases hdue
  intro due hdue
  rcases List.mem_append.mp hdue with hdue | hdue
  · rcases List.mem_append.mp hdue with hdue | hdue
    · exact hactivity h.moving due (Option.mem_toList.mp hdue)
    · exact hactivity h.chatting due (Option.mem_toList.mp hdue)
  · obtain ⟨dropped, hreleases⟩ := h.releases
    exact hreleases.ahead due (List.mem_append_left _ hdue)

end Routine

namespace Session

/-- The routine of a session started with its first spawn, keeps to its pace since, and was cancelled
when the session ended or was asked to stop. -/
structure Abides (s : Session) (h : History) : Prop where
  coherent : s.Coherent
  ended : h.endedAt.isSome = true ↔ s.Quiet
  spawned : s.lifecycle.spawned = h.spawnedAt.isSome
  attached : s.routine.isSome = (h.spawnedAt.isSome && s.pace.isSome)
  idle : s.routine = none → h.turns = []
  routine : ∀ r ∈ s.routine, ∃ pace ∈ s.pace, ∃ a ∈ h.spawnedAt,
    r.Follows pace a h.turnsOf h.endedAt s.clock

variable {s s' : Session} {h : History}

theorem abides_start (settings : SessionSettings) (pace : Option Pace) (script : Script) :
    (start settings pace script).Abides [] where
  coherent := coherent_start ..
  ended := by simp [History.endedAt, Quiet, start, Phase.isOver]
  spawned := rfl
  attached := rfl
  idle := fun _ => rfl
  routine := by simp [start]

theorem Abides.congr (ha : s.Abides h) (hc : s'.Coherent) (hquiet : s'.Quiet ↔ s.Quiet)
    (hspawned : s'.lifecycle.spawned = s.lifecycle.spawned) (hpace : s'.pace = s.pace)
    (hclock : s'.clock = s.clock) (hr : s'.routine = s.routine) : s'.Abides h where
  coherent := hc
  ended := ha.ended.trans hquiet.symm
  spawned := hspawned.trans ha.spawned
  attached := by rw [hr, hpace]; exact ha.attached
  idle := by rw [hr]; exact ha.idle
  routine := by rw [hr, hpace, hclock]; exact ha.routine

/-- A session that has spawned has a routine that keeps to its pace, if it has a pace. -/
theorem Abides.of_spawnedAt (ha : s.Abides h) {a : Nat} (hat : h.spawnedAt = some a) :
    s.pace = none ∧ h.turns = [] ∨ ∃ (r : Routine) (pace : Pace), s.pace = some pace ∧
      r.Follows pace a h.turnsOf h.endedAt s.clock := by
  have hattached := ha.attached
  rw [hat, Option.isSome_some, Bool.true_and] at hattached
  cases hr : s.routine with
  | none =>
    rw [hr] at hattached
    exact .inl ⟨by simpa using hattached.symm, ha.idle hr⟩
  | some r =>
    obtain ⟨pace, hpace, b, hb, hfollows⟩ := ha.routine r hr
    cases hat.symm.trans hb
    exact .inr ⟨r, pace, hpace, hfollows⟩

theorem Abides.turns_eq_nil (ha : s.Abides h) (hnone : h.spawnedAt = none) : h.turns = [] := by
  have hattached := ha.attached
  rw [hnone] at hattached
  exact ha.idle (by simpa using hattached)

/-! ## What the work does -/

/-- The session is asked to stop, or it sees something that does not start its routine. -/
theorem Abides.mark (ha : s.Abides h) {m : Mark} (hm : m.turn? = none) (hf : s'.clock = s.clock)
    (hpace : s'.pace = s.pace) (hc : s'.Coherent) (hquiet : s'.Quiet ↔ s.Quiet ∨ m.isEnd = true)
    (hspawned : s'.lifecycle.spawned = s.lifecycle.spawned) (hr : s'.routine = s.routine)
    (ho : m = .sight (.report (.event .spawn)) → s.lifecycle.spawned = true) :
    s'.Abides (h ++ [(s.clock, m)]) := by
  have hended : History.endedAt (h ++ [(s.clock, m)]) =
      h.endedAt.or (if m.isEnd then some s.clock else none) := by
    rw [History.endedAt_append]
    cases hend : m.isEnd <;> simp [History.endedAt, hend]
  have hspawnedAt : History.spawnedAt (h ++ [(s.clock, m)]) = h.spawnedAt := by
    rw [History.spawnedAt_append]
    by_cases hspawn : m = .sight (.report (.event .spawn))
    · have hsome := ho hspawn
      rw [ha.spawned] at hsome
      obtain ⟨a, hat⟩ := Option.isSome_iff_exists.mp hsome
      rw [hat, Option.some_or]
    · simp [History.spawnedAt, hspawn]
  have hturns : History.turns (h ++ [(s.clock, m)]) = h.turns := by
    simp [History.turns, hm]
  have hturnsOf : History.turnsOf (h ++ [(s.clock, m)]) = h.turnsOf := by
    funext k
    rw [History.turnsOf, hturns]
    rfl
  refine ⟨hc, ?_, ?_, ?_, ?_, ?_⟩
  · rw [hended, hquiet, ← ha.ended, Option.isSome_or, Bool.or_eq_true]
    cases m.isEnd <;> simp
  · rw [hspawned, hspawnedAt]
    exact ha.spawned
  · rw [hr, hpace, hspawnedAt]
    exact ha.attached
  · rw [hr, hturns]
    exact ha.idle
  · rw [hr, hpace, hf, hspawnedAt, hended, hturnsOf]
    intro r hr
    obtain ⟨pace, hp, a, hat, hfollows⟩ := ha.routine r hr
    refine ⟨pace, hp, a, hat, ?_⟩
    cases m.isEnd with
    | true => exact hfollows.cancel
    | false => rw [if_neg Bool.false_ne_true, Option.or_none]; exact hfollows

theorem not_quiet (hp : s.phase = .running) (hs : s.stopping = false) : ¬s.Quiet := by
  simp [Quiet, hp, hs, Phase.isOver]

theorem Abides.endedAt_eq_none (ha : s.Abides h) (hq : ¬s.Quiet) : h.endedAt = none := by
  rw [← Option.not_isSome_iff_eq_none, ha.ended]
  exact hq

theorem Abides.spawn (ha : s.Abides h) (hp : s.phase = .running) (hs : s.stopping = false)
    {rest : List Report} (hc : (s.spawned rest).Coherent) (hsp : s.lifecycle.spawned = false) :
    (s.spawned rest).Abides (h ++ [(s.clock, .sight (.report (.event .spawn)))]) := by
  have hstage := (ha.coherent.running hp).stage
  have hended := ha.endedAt_eq_none (not_quiet hp hs)
  have hnone : h.spawnedAt = none := by
    rw [← Option.not_isSome_iff_eq_none, ← ha.spawned, hsp]
    exact Bool.false_ne_true
  have hroutine : s.routine = none := by
    rw [← Option.not_isSome_iff_eq_none, ha.attached, hnone]
    exact Bool.false_ne_true
  have hturns : h.turns = [] := ha.idle hroutine
  have hpace : (s.spawned rest).routine = s.pace.map fun pace => .attach pace s.clock := by
    rw [Session.spawned, hroutine, Option.or_none]
  -- the history with the spawn, which is the first one
  generalize hh : h ++ [(s.clock, Mark.sight (.report (.event .spawn)))] = h'
  have hended' : History.endedAt h' = none := by
    rw [← hh, History.endedAt_append, hended]; rfl
  have hspawned' : History.spawnedAt h' = some s.clock := by
    rw [← hh, History.spawnedAt_append, hnone]; rfl
  have hturns' : History.turns h' = [] := by
    rw [← hh, History.turns_append, hturns]; rfl
  have hturnsOf' : History.turnsOf h' = fun _ => [] := by
    funext k
    rw [History.turnsOf, hturns']; rfl
  refine ⟨hc, ?_, ?_, ?_, fun _ => hturns', fun r hr => ?_⟩
  · rw [hended']
    exact iff_of_false Bool.false_ne_true (not_quiet hp hs)
  · rw [hspawned']
    simp [Session.spawned, Lifecycle.spawn, hsp, hstage]
  · rw [hpace, hspawned', Option.isSome_map]
    rfl
  · rw [hpace] at hr
    obtain ⟨pace, hpace, rfl⟩ := Option.map_eq_some_iff.mp hr
    refine ⟨pace, hpace, s.clock, hspawned', ?_⟩
    rw [hturnsOf', hended']
    exact Routine.follows_attach pace s.clock

theorem Abides.see (ha : s.Abides h) {o : Occurrence} {es : List Effect}
    (hw : Worked s (some o) s' es) (hquiet : s'.Quiet ↔ s.Quiet ∨ o.isFinal = true)
    (hspawned : s'.lifecycle.spawned = s.lifecycle.spawned) (hr : s'.routine = s.routine)
    (ho : o = .report (.event .spawn) → s.lifecycle.spawned = true) :
    s'.Abides (h ++ [(s.clock, .sight o)]) :=
  ha.mark rfl hw.frame.clock hw.frame.pace (hw.coherent ha.coherent) hquiet hspawned hr
    fun hm => ho (Mark.sight.inj hm)

/-- **A step of the work.** -/
theorem Abides.work (ha : s.Abides h) {o? : Option Occurrence} {es : List Effect}
    (hw : Worked s o? s' es) :
    s'.Abides (h ++ o?.toList.map fun o => (s.clock, .sight o)) := by
  have hc := hw.coherent ha.coherent
  -- something final ends the session, and nothing else does
  have hfinal {o : Occurrence} (hover : s'.phase.isOver = true) (ho : o.isFinal = true) :
      s'.Quiet ↔ s.Quiet ∨ o.isFinal = true := iff_of_true (.inr hover) (.inr ho)
  have hopen {o : Occurrence} (hp : s.phase.isOver = false) (hp' : s'.phase.isOver = false)
      (ho : o.isFinal = false) : s'.Quiet ↔ s.Quiet ∨ o.isFinal = true := by
    simp [Quiet, hp, hp', ho, hw.frame.stopping]
  cases hw with
  | idle => simpa using ha
  | begun hp hs =>
    rw [Option.toList_none, List.map_nil, List.append_nil]
    exact ha.congr hc (by simp [Quiet, begun, hp, Phase.isOver]) rfl rfl rfl rfl
  | stoppedEarly line hp hs hl =>
    exact ha.see (.stoppedEarly line hp hs hl) (hfinal rfl rfl) rfl rfl (by simp)
  | stopped due line hp hs hl =>
    exact ha.see (.stopped due line hp hs hl) (hfinal rfl rfl) rfl rfl (by simp)
  | refused due delay f line hp hs ho hl =>
    exact ha.see (.refused due delay f line hp hs ho hl) (hfinal rfl rfl) rfl rfl (by simp)
  | crashed due delay message hp hs ho =>
    exact ha.see (.crashed due delay message hp hs ho) (hfinal rfl rfl) rfl rfl (by simp)
  | opened due delay line hp hs ho hl =>
    have hquiet := hopen (o := .opening .opened) (by rw [hp]; rfl) rfl rfl
    exact ha.see (.opened due delay line hp hs ho hl) hquiet rfl rfl (by simp)
  | noted e rest line hp hs hi hr hlogin hl hspawn =>
    refine ha.see (.noted e rest line hp hs hi hr hlogin hl hspawn)
      (hopen (by rw [hp]; rfl) (by simp [noted, hp, Phase.isOver]) hr) rfl rfl fun ho => ?_
    exact hspawn (Report.event.inj (Occurrence.report.inj ho))
  | spawned rest lines hp hs hi hsp hl => exact ha.spawn hp hs hc hsp
  | loggedIn rest line hp hs hi hstage hl =>
    exact ha.see (.loggedIn rest line hp hs hi hstage hl)
      (hopen (by rw [hp]; rfl) (by simp [loggedIn, hp, Phase.isOver]) (by decide)) rfl rfl (by simp)
  | ended o inbox e line line' hp ho hv hl hl' =>
    refine ha.see (.ended o inbox e line line' hp ho hv hl hl')
      (hfinal rfl (Occurrence.isFinal_of_failure hv)) rfl rfl fun hspawn => ?_
    rw [hspawn] at hv
    cases hv

/-! ## What the routine does -/

theorem Coherent.quiet_of_cancelled (hc : s.Coherent) (h : s.situation.cancelled = true) :
    s.Quiet := by
  rcases (Bool.or_eq_true ..).mp h with hs | hkept
  · exact .inl hs
  · right
    cases hp : s.phase with
    | finished | crashed => rfl
    | fresh => rw [(hc.fresh hp).kept] at hkept; cases hkept
    | connecting due => rw [(hc.connecting hp).1.kept] at hkept; cases hkept
    | running => rw [(hc.running hp).kept] at hkept; cases hkept

theorem Abides.goOn (ha : s.Abides h) {r r' : Routine} (hr : s.routine = some r)
    (hc : ({ s with routine := some r' } : Session).Coherent) {recent : History}
    (hended : recent.endedAt = none) (hspawned : recent.spawnedAt = none)
    (hr' : ∀ pace a, r.Follows pace a h.turnsOf h.endedAt s.clock →
      r'.Follows pace a (History.turnsOf (h ++ recent)) h.endedAt s.clock) :
    ({ s with routine := some r' } : Session).Abides (h ++ recent) := by
  have hended' : History.endedAt (h ++ recent) = h.endedAt := by
    rw [History.endedAt_append, hended, Option.or_none]
  have hspawned' : History.spawnedAt (h ++ recent) = h.spawnedAt := by
    rw [History.spawnedAt_append, hspawned, Option.or_none]
  refine ⟨hc, hended' ▸ ha.ended, hspawned' ▸ ha.spawned, ?_, by simp, fun r'' hr'' => ?_⟩
  · rw [hspawned', ← ha.attached, hr]
    rfl
  · cases hr''
    obtain ⟨pace, hpace, a, hat, hfollows⟩ := ha.routine r hr
    rw [hspawned', hended']
    exact ⟨pace, hpace, a, hat, hr' pace a hfollows⟩

theorem Worked.responses {o? : Option Occurrence} {es : List Effect} (hw : Worked s o? s' es) :
    s'.responses = s.responses := by
  cases hw <;> rfl

end Session

namespace Seat

open Session (Abides)

variable {seat : Seat} {h : History}

/-- **A step of the routine.** -/
theorem abides_routine (ha : seat.session.Abides h) (draw : Draw) (task : Routine.Task) :
    (seat.move (.act draw (.routine task))).session.Abides
      (h ++ seat.recent (.act draw (.routine task))) := by
  have hc := coherent_move seat (.act draw (.routine task)) ha.coherent
  rcases Session.step_routine seat.session draw task with ⟨hnot, hs⟩ | ⟨r, hr, hready, hs⟩
  · rw [move, hs]
    simpa [recent, marks, hnot, advance] using ha
  · rw [move, hs] at hc ⊢
    have hany : seat.session.ready (.routine task) = true := by
      rw [Session.ready, hr]
      exact hready
    cases hcancelled : seat.session.situation.cancelled with
    | true =>
      have hrecent : seat.recent (.act draw (.routine task)) = [] := by
        simp [recent, marks, hcancelled]
      have hended := ha.ended.mpr (ha.coherent.quiet_of_cancelled hcancelled)
      refine ha.goOn hr hc (by rw [hrecent]; rfl) (by rw [hrecent]; rfl) fun pace a hfollows => ?_
      rw [hrecent, List.append_nil]
      exact hfollows.fade hended (Routine.stepped hready draw) hcancelled
    | false =>
      have hnone : h.endedAt = none := ha.endedAt_eq_none fun hq => by
        rw [hq.cancelled ha.coherent hr] at hcancelled
        cases hcancelled
      obtain ⟨u, hkind, hresponses, hrecent⟩ : ∃ u : Turn, u.kind = task.kind ∧
          u.responses = seat.session.responses ∧
          seat.recent (.act draw (.routine task)) = [(seat.session.clock, .turn u)] :=
        ⟨⟨task.kind, seat.session.responses, (seat.session.step draw (.routine task)).2⟩, rfl, rfl,
          by simp [recent, marks, hany, hcancelled]⟩
      refine ha.goOn hr hc (by rw [hrecent]; rfl) (by rw [hrecent]; rfl) fun pace a hfollows => ?_
      rw [hnone] at hfollows ⊢
      refine hfollows.turn (hkind ▸ Routine.turned hready hcancelled draw) hresponses fun k => ?_
      rw [hrecent, History.turnsOf_append]
      by_cases hk : u.kind = k <;>
        simp [History.turnsOf, History.turns, Mark.turn?, hk, Session.situation]

/-- **Time passes.** -/
theorem abides_pass (ha : seat.session.Abides h) {d : Nat} (hd : seat.session.MayPass d) :
    (seat.session.pass d).Abides h := by
  have hc := coherent_move seat (.pass d) ha.coherent
  refine ⟨hc, ha.ended, ha.spawned, ha.attached, ha.idle, fun r hr => ?_⟩
  obtain ⟨pace, hpace, a, hat, hfollows⟩ := ha.routine r hr
  refine ⟨pace, hpace, a, hat, hfollows.pass fun hended due hdue => ?_⟩
  rw [hended] at hfollows
  exact hd.le_of_due hr hdue (hfollows.ahead due hdue)

/-- **Whatever happens in time.** -/
theorem abides_move (ha : seat.session.Abides h) {m : Move} (hm : seat.Allows m) :
    (seat.move m).session.Abides (h ++ seat.recent m) := by
  have hc := coherent_move seat m ha.coherent
  cases m with
  | act draw task =>
    cases task with
    | work =>
      rw [recent, marks, List.map_map]
      exact ha.work (Session.step_work ha.coherent draw)
    | report =>
      have hsame : seat.recent (.act draw .report) = [] := rfl
      rw [hsame, List.append_nil]
      rcases Session.step_report seat.session draw with ⟨-, hs⟩ | ⟨_, _, _, -, -, -, hs⟩ <;>
        rw [move, hs] at hc ⊢
      · exact ha
      · exact ha.congr hc Iff.rfl rfl rfl rfl rfl
    | routine task => exact abides_routine ha draw task
  | stop =>
    refine ha.mark rfl rfl rfl hc ?_ rfl rfl (by simp)
    exact iff_of_true (.inl rfl) (.inr rfl)
  | change responses =>
    rw [show seat.recent (.change responses) = [] from rfl, List.append_nil]
    rw [move, Session.change] at hc ⊢
    split at hc <;> rename_i hw
    · rw [if_pos hw]
      exact ha.congr hc Iff.rfl rfl rfl rfl rfl
    · rw [if_neg hw]
      exact ha
  | ask =>
    rw [show seat.recent .ask = [] from rfl, List.append_nil]
    exact ha.congr hc Iff.rfl rfl rfl rfl rfl
  | pass d =>
    rw [show seat.recent (.pass d) = [] from rfl, List.append_nil]
    exact abides_pass ha hm

/-- **The routine of a session keeps to its pace, whatever happens in time.** -/
theorem abides_run (start : Nat) (settings : SessionSettings) (pace : Option Pace) (script : Script)
    {ms : List Move} (h : (fresh start settings pace script).Timely ms) :
    ((fresh start settings pace script).run ms).session.Abides
      ((fresh start settings pace script).history ms) :=
  timely_induction (P := fun seat h => seat.session.Abides h) (h := [])
    (Session.abides_start settings pace script) h fun _ _ _ _ hm ha => abides_move ha hm

/-! ## The responses of the client -/

theorem responses_move {seat : Seat} (h : seat.session.Coherent) (m : Move) :
    (seat.move m).session.responses = seat.session.responses ∨
      m = .change (seat.move m).session.responses := by
  cases m with
  | act draw task =>
    left
    cases task with
    | work => exact (Session.step_work h draw).responses
    | report =>
      rcases Session.step_report seat.session draw with ⟨-, hs⟩ | ⟨_, _, _, -, -, -, hs⟩ <;>
        rw [move, hs] <;> rfl
    | routine task =>
      rcases Session.step_routine seat.session draw task with ⟨-, hs⟩ | ⟨_, -, -, hs⟩ <;>
        rw [move, hs] <;> rfl
  | change responses =>
    rw [move, Session.change]
    split
    · exact .inr rfl
    · exact .inl rfl
  | _ => exact .inl rfl

theorem responses_history {Q : Client.Responses → Prop} {seat : Seat} (h : seat.session.Coherent)
    (hq : Q seat.session.responses) {ms : List Move}
    (hchange : ∀ responses, .change responses ∈ ms → Q responses) :
    ∀ x ∈ (seat.history ms).turns, Q x.2.responses := by
  induction ms generalizing seat with
  | nil => simp [history, History.turns]
  | cons m ms ih =>
    intro x hx
    rw [history, History.turns_append] at hx
    rcases List.mem_append.mp hx with hx | hx
    · cases m with
      | act draw task =>
        cases task with
        | work =>
          cases hs : seat.session.sight? <;>
            simp [recent, marks, hs, History.turns, Mark.turn?] at hx
        | report => cases hx
        | routine task =>
          rw [recent, marks] at hx
          split at hx
          · obtain rfl : x = (seat.session.clock, _) := List.mem_singleton.mp hx
            exact hq
          · cases hx
      | _ => cases hx
    · refine ih (coherent_move seat m h) ?_
        (fun r hr => hchange r (List.mem_cons_of_mem m hr)) x hx
      rcases responses_move h m with hsame | hm
      · rwa [hsame]
      · exact hchange _ (hm ▸ List.mem_cons_self)

end Seat

/-! ## The law of the ticks -/

/-- A client of which no response brings down its caller; those to a release do not matter. -/
structure Client.Responses.Steady (r : Client.Responses) : Prop where
  sight : r.sight ≠ .crash
  look : r.look ≠ .crash
  engage : r.engage ≠ .crash
  chat : r.chat ≠ .crash

theorem Client.Responses.Steady.crashes {r : Client.Responses} (h : r.Steady) (k : Turn.Kind) :
    r.crashes k = false := by
  cases k with
  | move =>
    unfold Client.Responses.crashes
    cases hs : r.sight with
    | crash => exact absurd hs h.sight
    | unknown => rfl
    | «at» p => simp [h.look, h.engage]
  | chat => simp [Client.Responses.crashes, h.chat]
  | release => rfl

/-- Some turns take place exactly at the instants of a series: at its first instants, at all those
before some instant, as far as the clock goes, and at none after it. -/
structure InSeries (start period : Nat) (turns : List (Nat × Turn)) (upTo : Nat) : Prop where
  instants : turns.map Prod.fst = (List.range turns.length).map (Clock.tickAt start period)
  le : ∀ x ∈ turns, x.1 ≤ upTo
  all : ∀ n, Clock.tickAt start period n < upTo → Clock.tickAt start period n ≤ Clock.last →
    Clock.tickAt start period n ∈ turns.map Prod.fst

theorem Series.inSeries {start period upTo : Nat} {turns : List (Nat × Turn)}
    (h : Series start period turns upTo) (hperiod : 0 < period)
    (hquiet : ∀ x ∈ turns, x.2.crashes = false) : InSeries start period turns upTo := by
  refine ⟨h.instants, h.le, fun n hn hlast => ?_⟩
  rcases h.next with hnext | hnone | ⟨x, hx, hcrash⟩
  · have hlt : n < turns.length := by
      by_contra hge
      have := Clock.tickAt_mono start period (Nat.le_of_not_lt hge)
      omega
    rw [h.instants]
    exact List.mem_map_of_mem (List.mem_range.mpr hlt)
  · -- a series with a period that cannot start would start after the last instant
    have hfirst := Clock.tickAt_mono start period (Nat.zero_le n)
    rw [Clock.tickAt, Nat.zero_mul, Nat.add_zero] at hfirst
    rw [Ticker.start?, dif_pos ⟨hperiod, Nat.le_trans hfirst hlast⟩] at hnone
    cases hnone
  · rw [hquiet x hx] at hcrash
    cases hcrash

namespace Seat

/-- **The ticks of a session are in series.** Let a session with a pace of positive intervals run in
time, whatever its script is and however its client's responses change, unless they bring down their
caller. Then from the instant at which it sees the first spawn

* it has a movement tick at each instant of the series of the one interval, and a chat tick at each
  instant of that of the other, up to the instant at which it sees something final or is asked to
  stop for the first time, and none after that;
* no later spawn starts another series, and without a spawn there are no ticks;
* every call that it makes, and all that it counts of them, belongs to a tick, or to a release that
  is due, and takes place at its instant: a movement tick with an unknown position makes no call,
  with a known one it turns once, at the height of that position, and it holds `forward` exactly if
  that succeeds; a chat tick says one line;
* it counts as many moves and chats as there are ticks of which all calls succeed. -/
theorem ticks_in_series (start : Nat) (settings : SessionSettings) (pace : Pace) (script : Script)
    (ms : List Move) (hmove : 0 < pace.moveInterval) (hchat : 0 < pace.chatInterval)
    (hsteady : script.responses.Steady)
    (hchange : ∀ responses, .change responses ∈ ms → responses.Steady)
    (htimely : (fresh start settings (some pace) script).Timely ms) :
    let seat := (fresh start settings (some pace) script).run ms
    let history := (fresh start settings (some pace) script).history ms
    let upTo := history.endedAt.getD seat.session.clock
    (∀ a, history.spawnedAt = some a →
      InSeries a pace.moveInterval (history.turnsOf .move) upTo ∧
      InSeries a pace.chatInterval (history.turnsOf .chat) upTo) ∧
      (history.spawnedAt = none → history.turns = []) ∧
      seat.timedDeeds = history.turns.flatMap (fun x => x.2.deeds.map (x.1, ·)) ∧
      (∀ x ∈ history.turns, x.2.Lawful) ∧
      seat.times (.count .moves) = history.turns.countP (·.2.engages) ∧
      seat.times (.count .chats) = history.turns.countP (·.2.speaks) := by
  intro seat history upTo
  have hc := coherent_fresh start settings (some pace) script
  have habides : seat.session.Abides history := abides_run start settings (some pace) script htimely
  have hpace : seat.session.pace = some pace := pace_run hc ms
  have hquiet : ∀ x ∈ history.turns, x.2.crashes = false := fun x hx =>
    (responses_history hc (Q := Client.Responses.Steady) hsteady hchange x hx).crashes _
  have hquietOf (k : Turn.Kind) : ∀ x ∈ history.turnsOf k, x.2.crashes = false := fun x hx =>
    hquiet x (List.mem_of_mem_filter hx)
  refine ⟨fun a ha => ?_, habides.turns_eq_nil, timedDeeds_run hc ms, lawful_history hc ms, ?_, ?_⟩
  · rcases habides.of_spawnedAt ha with ⟨hnone, -⟩ | ⟨r, pace', hpace', hfollows⟩
    · cases hpace.symm.trans hnone
    · cases hpace.symm.trans hpace'
      exact ⟨hfollows.moving.series.inSeries hmove (hquietOf .move),
        hfollows.chatting.series.inSeries hchat (hquietOf .chat)⟩
  · exact times_run start settings (some pace) script ms rfl
  · exact times_run start settings (some pace) script ms rfl

/-- A bot that cannot turn at first, and whose first spawn is followed by another one. -/
theorem ticks_after_respawn :
    let first := fresh 0 ⟨"Bot1", ⟨"localhost", 25565, "1.21.4"⟩⟩ (some ⟨2, 1, 3⟩)
      { responses := { sight := .at default, look := .refused .closed }
        events := [(1, .spawn), (3, .spawn)] }
    let ms := [.act .steady .work, .act .steady .work, .pass 1, .act .steady .report,
      .act .steady .work, .pass 2, .act .steady (.routine .move),
      .change { sight := .at default, chat := .refused .backpressure }, .pass 1,
      .act .steady (.routine .chat), .act .steady .report, .act .steady .work, .pass 1,
      .act .steady (.routine .move), .pass 1]
    let history := first.history ms
    first.Timely ms ∧ history.spawnedAt = some 1 ∧
      InSeries 1 2 (history.turnsOf .move) 6 ∧ (history.turnsOf .move).map Prod.fst = [3, 5] ∧
      InSeries 1 3 (history.turnsOf .chat) 6 ∧ (history.turnsOf .chat).map Prod.fst = [4] ∧
      (first.run ms).times (.count .moves) = 1 := by
  intro first ms history
  have htimely : first.Timely ms := by decide
  have hchange (responses : Client.Responses) (h : .change responses ∈ ms) : responses.Steady := by
    obtain rfl : responses = { sight := .at default, chat := .refused .backpressure } := by
      simpa [ms] using h
    exact ⟨by simp, by simp, by simp, by simp⟩
  obtain ⟨hseries, -, -, -, hmoves, -⟩ := ticks_in_series 0 ⟨"Bot1", ⟨"localhost", 25565, "1.21.4"⟩⟩
    ⟨2, 1, 3⟩ { responses := { sight := .at default, look := .refused .closed }
                events := [(1, .spawn), (3, .spawn)] } ms (by decide) (by decide)
    ⟨by simp, by simp, by simp, by simp⟩ hchange htimely
  have hspawned : history.spawnedAt = some 1 := by decide
  obtain ⟨hmove, hchat⟩ := hseries 1 hspawned
  exact ⟨htimely, hspawned, hmove, by decide, hchat, by decide, hmoves.trans (by decide)⟩

/-- A chat tick that does not take place at a multiple of its interval, too long to sleep. -/
theorem tick_between_multiples :
    let interval := 1000000000000
    let first := fresh 0 ⟨"Bot1", ⟨"localhost", 25565, "1.21.4"⟩⟩
      (some ⟨100 * interval, 400, interval⟩) { events := [(0, .spawn)] }
    let ms := [.act .steady .work, .act .steady .work, .act .steady .report, .act .steady .work,
      .pass interval, .act .steady (.routine .chat), .pass 946080000000,
      .act .steady (.routine .chat)]
    let history := first.history ms
    first.Timely ms ∧ history.spawnedAt = some 0 ∧ history.endedAt = none ∧
      ∃ x ∈ history.turnsOf .chat, ∀ k, x.1 ≠ 0 + k * interval := by
  intro interval first ms history
  refine ⟨by decide, by decide, by decide, ?_⟩
  have hinstants : (history.turnsOf .chat).map Prod.fst = [interval, 1946080000000] := by decide
  have hmem : 1946080000000 ∈ (history.turnsOf .chat).map Prod.fst := by
    rw [hinstants]
    exact List.mem_cons_of_mem _ List.mem_cons_self
  obtain ⟨x, hx, hinstant⟩ := List.mem_map.mp hmem
  refine ⟨x, hx, fun k => ?_⟩
  rw [hinstant]
  omega

end Seat

end BotFleet
