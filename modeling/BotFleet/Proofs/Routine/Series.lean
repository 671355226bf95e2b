import BotFleet.Proofs.Routine.Rest
import BotFleet.Proofs.Routine.Turn
import Mathlib.Data.List.Perm.Basic

/-!
# The instants of a routine

An activity has its ticks at the instants of a series that starts with the routine, and a movement
tick that holds `forward` lets go of it some time later.

* `Clock.tickAt`: the instants of a series;
* `Series`: some turns take place at the first instants of a series, up to some instant;
* `Activity.Keeps`, **`Activity.Keeps.series`**: an activity that keeps to its series;
* `Activity.Keeps.tick`, `Activity.Keeps.stop`, `Activity.Keeps.cancel`, `Activity.Keeps.pass`: what
  happens to it;
* `Releases`: the releases of some movement ticks, those that took place and those that did not;
* `Routine.Follows`: a routine that does both;
* **`Routine.Follows.turn`**, `Routine.Follows.fade`: it goes on so, and fades once it is cancelled.
-/

namespace BotFleet

namespace Clock

/-- The instants of a series: the first one is a period after the start, and none comes later after
the one before than the longest sleep. -/
def tickAt (start period n : Nat) : Nat := start + period + n * min period longestSleep

theorem tickAt_succ (start period n : Nat) :
    tickAt start period (n + 1) = wake (tickAt start period n) period := by
  simp only [tickAt, wake, Nat.succ_mul, Nat.add_assoc]

theorem tickAt_mono (start period : Nat) {n m : Nat} (h : n ≤ m) :
    tickAt start period n ≤ tickAt start period m :=
  Nat.add_le_add_left (Nat.mul_le_mul_right _ h) _

/-- A period that is not too long to sleep makes for multiples of it. -/
theorem tickAt_eq (start n : Nat) {period : Nat} (h : period ≤ longestSleep) :
    tickAt start period n = start + (n + 1) * period := by
  rw [tickAt, Nat.min_eq_left h, Nat.succ_mul]
  omega

end Clock

/-! ## Series -/

/-- Some turns take place at the first instants of a series. -/
structure Regular (start period : Nat) (turns : List (Nat × Turn)) (upTo : Nat) : Prop where
  started : (Ticker.start? start period).isSome = true
  instants : turns.map Prod.fst = (List.range turns.length).map (Clock.tickAt start period)
  le : ∀ x ∈ turns, x.1 ≤ upTo

/-- Some turns take place at the first instants of a series, at all those before some instant and at
none after it, unless the series cannot start, or ends because a turn crashes. -/
structure Series (start period : Nat) (turns : List (Nat × Turn)) (upTo : Nat) : Prop where
  regular : turns ≠ [] → Regular start period turns upTo
  lasting : ∀ x ∈ turns.dropLast, x.2.crashes = false
  next : upTo ≤ Clock.tickAt start period turns.length ∨ Ticker.start? start period = none ∨
    ∃ x ∈ turns, x.2.crashes = true

/-- An activity that keeps to its series. It was cancelled at some instant or was not, and no tick
that was due before has been left out. -/
inductive Activity.Keeps (start period : Nat) (ended : Option Nat) (now : Nat) :
    Activity → List (Nat × Turn) → Prop where
  | idle : Ticker.start? start period = none → Keeps start period ended now .crashed []
  | running (t : Ticker) (turns : List (Nat × Turn)) : t.period = period →
      t.due = Clock.tickAt start period turns.length → ended.getD now ≤ t.due →
      Regular start period turns (ended.getD now) → (∀ x ∈ turns, x.2.crashes = false) →
      Keeps start period ended now (.running t) turns
  | stopped (turns : List (Nat × Turn)) : ended.isSome = true →
      ended.getD now ≤ Clock.tickAt start period turns.length →
      Regular start period turns (ended.getD now) → (∀ x ∈ turns, x.2.crashes = false) →
      Keeps start period ended now .stopped turns
  | crashed (turns : List (Nat × Turn)) (x : Nat × Turn) :
      Regular start period (turns ++ [x]) (ended.getD now) → x.2.crashes = true →
      (∀ x ∈ turns, x.2.crashes = false) → Keeps start period ended now .crashed (turns ++ [x])

theorem Series.instants {start period upTo : Nat} {turns : List (Nat × Turn)}
    (h : Series start period turns upTo) :
    turns.map Prod.fst = (List.range turns.length).map (Clock.tickAt start period) := by
  by_cases hne : turns = []
  · rw [hne]
    rfl
  · exact (h.regular hne).instants

theorem Series.le {start period upTo : Nat} {turns : List (Nat × Turn)}
    (h : Series start period turns upTo) : ∀ x ∈ turns, x.1 ≤ upTo :=
  fun x hx => (h.regular (List.ne_nil_of_mem hx)).le x hx

theorem Regular.snoc {start period now : Nat} {turns : List (Nat × Turn)}
    (h : Regular start period turns now) (u : Turn)
    (hnow : now = Clock.tickAt start period turns.length) :
    Regular start period (turns ++ [(now, u)]) now where
  started := h.started
  instants := by
    rw [List.map_append, h.instants, List.length_append, List.length_singleton, List.range_succ,
      List.map_append, List.map_singleton, List.map_singleton, ← hnow]
  le x hx := by
    rcases List.mem_append.mp hx with hx | hx
    · exact h.le x hx
    · cases List.mem_singleton.mp hx
      exact Nat.le_refl now

theorem Regular.mono {start period upTo upTo' : Nat} {turns : List (Nat × Turn)}
    (h : Regular start period turns upTo) (hle : upTo ≤ upTo') : Regular start period turns upTo' :=
  ⟨h.started, h.instants, fun x hx => Nat.le_trans (h.le x hx) hle⟩

namespace Activity

variable {start period now : Nat} {ended : Option Nat} {a : Activity} {turns : List (Nat × Turn)}

theorem keeps_start (now period : Nat) : Keeps now period none now (.start now period) [] := by
  unfold Activity.start
  cases ht : Ticker.start? now period with
  | none => exact .idle ht
  | some t =>
    have hstarted : (Ticker.start? now period).isSome = true := by rw [ht]; rfl
    unfold Ticker.start? at ht
    split at ht
    · cases ht
      exact .running _ [] rfl (by simp [Clock.tickAt]) (Nat.le_add_right ..)
        ⟨hstarted, rfl, by simp⟩ (by simp)
    · cases ht

namespace Keeps

/-- **The turns of such an activity make a series.** -/
theorem series (h : Keeps start period ended now a turns) :
    Series start period turns (ended.getD now) := by
  cases h with
  | idle hnone => exact ⟨fun hne => absurd rfl hne, by simp, .inr (.inl hnone)⟩
  | running t _ _ hdue hle hregular hquiet =>
    exact ⟨fun _ => hregular, fun x hx => hquiet x (turns.dropLast_subset hx), .inl (hdue ▸ hle)⟩
  | stopped _ _ hle hregular hquiet =>
    exact ⟨fun _ => hregular, fun x hx => hquiet x (turns.dropLast_subset hx), .inl hle⟩
  | crashed before x hregular hcrash hquiet =>
    refine ⟨fun _ => hregular, fun y hy => ?_, .inr (.inr ⟨x, by simp, hcrash⟩)⟩
    rw [List.dropLast_concat] at hy
    exact hquiet y hy

theorem tick {t : Ticker} (h : Keeps start period none now (.running t) turns) (hdue : t.due ≤ now)
    (u : Turn) : Keeps start period none now
      (if u.crashes then .crashed else .running (t.advance now)) (turns ++ [(now, u)]) := by
  cases h with
  | running _ _ hperiod hnext hle hregular hquiet =>
    have hnow : now = Clock.tickAt start period turns.length := by
      have : now ≤ t.due := hle
      omega
    have hsnoc := hregular.snoc u hnow
    cases hu : u.crashes with
    | true => exact .crashed turns (now, u) hsnoc hu hquiet
    | false =>
      have hlater : (t.advance now).due = Clock.tickAt start period (turns ++ [(now, u)]).length := by
        rw [List.length_append, List.length_singleton, Clock.tickAt_succ, ← hnow, ← hperiod]
        rfl
      refine .running _ _ hperiod hlater ?_ hsnoc fun x hx => ?_
      · exact Nat.le_of_lt (Clock.lt_wake now t.period_pos)
      · rcases List.mem_append.mp hx with hx | hx
        · exact hquiet x hx
        · rw [List.mem_singleton.mp hx]
          exact hu

theorem cancel (h : Keeps start period ended now a turns) :
    Keeps start period (ended.or (some now)) now a turns := by
  cases ended with
  | some t => exact h
  | none =>
    cases h with
    | idle hnone => exact .idle hnone
    | running t _ hperiod hnext hle hregular hquiet =>
      exact .running t _ hperiod hnext hle hregular hquiet
    | stopped _ hended => cases hended
    | crashed before x hregular hcrash hquiet => exact .crashed before x hregular hcrash hquiet

theorem stop {t : Ticker} (h : Keeps start period ended now (.running t) turns)
    (hended : ended.isSome = true) : Keeps start period ended now .stopped turns := by
  cases h with
  | running _ _ _ hnext hle hregular hquiet =>
    exact .stopped turns hended (hnext ▸ hle) hregular hquiet

theorem pass (h : Keeps start period ended now a turns) {d : Nat}
    (hd : ended = none → ∀ due, a.due? = some due → now + d ≤ due) :
    Keeps start period ended (now + d) a turns := by
  cases ended with
  | some t =>
    cases h with
    | idle hnone => exact .idle hnone
    | running t _ hperiod hnext hle hregular hquiet =>
      exact .running t _ hperiod hnext hle hregular hquiet
    | stopped _ hended hle hregular hquiet => exact .stopped _ hended hle hregular hquiet
    | crashed before x hregular hcrash hquiet => exact .crashed before x hregular hcrash hquiet
  | none =>
    have hlater : (none : Option Nat).getD now ≤ (none : Option Nat).getD (now + d) :=
      Nat.le_add_right ..
    cases h with
    | idle hnone => exact .idle hnone
    | running t _ hperiod hnext _ hregular hquiet =>
      exact .running t _ hperiod hnext (hd rfl _ rfl) (hregular.mono hlater) hquiet
    | stopped _ hended => cases hended
    | crashed before x hregular hcrash hquiet =>
      exact .crashed before x (hregular.mono hlater) hcrash hquiet

end Keeps

end Activity

/-! ## Releases -/

/-- Every movement tick that holds `forward` brings a release, which takes place when it is due, is
still to come, or has been dropped since the routine was cancelled. -/
structure Releases (duration : Nat) (moves releases : List (Nat × Turn)) (pending dropped : List Nat)
    (ended : Option Nat) (now : Nat) : Prop where
  perm : (releases.map Prod.fst ++ (pending ++ dropped)).Perm
    ((moves.filter (·.2.engages)).map fun x => Clock.wake x.1 duration)
  le : ∀ x ∈ releases, x.1 ≤ ended.getD now
  ahead : ∀ due ∈ pending ++ dropped, ended.getD now ≤ due
  kept : ended = none → dropped = []

namespace Releases

variable {duration now : Nat} {moves releases : List (Nat × Turn)} {pending dropped : List Nat}
  {ended : Option Nat}

theorem nil (duration now : Nat) : Releases duration [] [] [] [] none now :=
  ⟨.refl _, by simp, by simp, fun _ => rfl⟩

theorem move (h : Releases duration moves releases pending dropped none now) (u : Turn) :
    Releases duration (moves ++ [(now, u)]) releases
      (pending ++ if u.engages then [Clock.wake now duration] else []) dropped none now := by
  obtain rfl := h.kept rfl
  cases hu : u.engages with
  | false =>
    refine ⟨?_, h.le, by simpa using h.ahead, h.kept⟩
    simpa [List.filter_append, hu] using h.perm
  | true =>
    refine ⟨?_, h.le, fun due hdue => ?_, h.kept⟩
    · rw [List.filter_append, List.map_append]
      have hperm := h.perm.append_right [Clock.wake now duration]
      simpa [hu] using hperm
    · simp only [if_true, List.append_nil, List.mem_append, List.mem_singleton] at hdue
      rcases hdue with hdue | rfl
      · exact h.ahead due (by simpa using hdue)
      · exact Nat.le_add_right ..

theorem eraseIdx_perm {i due : Nat} (hi : pending[i]? = some due) :
    (due :: pending.eraseIdx i).Perm pending := by
  obtain ⟨hlt, rfl⟩ := List.getElem?_eq_some_iff.mp hi
  exact List.getElem_cons_eraseIdx_perm hlt

theorem release (h : Releases duration moves releases pending dropped none now) {i due : Nat}
    (hi : pending[i]? = some due) (hdue : due ≤ now) (u : Turn) :
    Releases duration moves (releases ++ [(now, u)]) (pending.eraseIdx i) dropped none now := by
  obtain rfl := h.kept rfl
  have hahead : now ≤ due := h.ahead due (List.mem_append_left _ (List.mem_of_getElem? hi))
  obtain rfl : due = now := Nat.le_antisymm hdue hahead
  refine ⟨?_, fun x hx => ?_, fun d hd => ?_, h.kept⟩
  · have hperm := (eraseIdx_perm hi).append_left (releases.map Prod.fst)
    simpa using hperm.trans (by simpa using h.perm)
  · rcases List.mem_append.mp hx with hx | hx
    · exact h.le x hx
    · cases List.mem_singleton.mp hx
      exact Nat.le_refl _
  · rw [List.append_nil] at hd
    exact h.ahead d (List.mem_append_left _ ((List.eraseIdx_sublist ..).subset hd))

theorem drop (h : Releases duration moves releases pending dropped ended now)
    (hended : ended.isSome = true) {i due : Nat} (hi : pending[i]? = some due) :
    Releases duration moves releases (pending.eraseIdx i) (due :: dropped) ended now := by
  have hperm : (pending.eraseIdx i ++ due :: dropped).Perm (pending ++ dropped) :=
    List.perm_middle.trans ((eraseIdx_perm hi).append_right dropped)
  refine ⟨(hperm.append_left _).trans h.perm, h.le, fun d hd => h.ahead d (hperm.subset hd), ?_⟩
  rintro rfl
  cases hended

theorem cancel (h : Releases duration moves releases pending dropped ended now) :
    Releases duration moves releases pending dropped (ended.or (some now)) now := by
  cases ended with
  | some t => exact h
  | none => exact ⟨h.perm, h.le, h.ahead, by simp⟩

theorem pass (h : Releases duration moves releases pending dropped ended now) {d : Nat}
    (hd : ended = none → ∀ due ∈ pending, now + d ≤ due) :
    Releases duration moves releases pending dropped ended (now + d) := by
  cases ended with
  | some t => exact ⟨h.perm, h.le, h.ahead, h.kept⟩
  | none =>
    obtain rfl := h.kept rfl
    refine ⟨h.perm, fun x hx => Nat.le_trans (h.le x hx) (Nat.le_add_right ..), ?_, h.kept⟩
    simpa using hd rfl

end Releases

/-! ## Routines -/

namespace Routine

/-- A routine that keeps to its pace. It started at some instant, has taken some turns of each kind,
and was cancelled at some instant or was not. -/
structure Follows (r : Routine) (pace : Pace) (start : Nat)
    (turns : Turn.Kind → List (Nat × Turn)) (ended : Option Nat) (now : Nat) : Prop where
  duration : r.moveDuration = pace.moveDuration
  moving : r.moving.Keeps start pace.moveInterval ended now (turns .move)
  chatting : r.chatting.Keeps start pace.chatInterval ended now (turns .chat)
  releases : ∃ dropped,
    Releases pace.moveDuration (turns .move) (turns .release) r.releases dropped ended now

theorem follows_attach (pace : Pace) (now : Nat) :
    (attach pace now).Follows pace now (fun _ => []) none now :=
  ⟨rfl, Activity.keeps_start .., Activity.keeps_start .., [], .nil ..⟩

namespace Follows

variable {r r' : Routine} {c : Situation} {pace : Pace} {start now : Nat}
  {turns turns' : Turn.Kind → List (Nat × Turn)} {ended : Option Nat}

/-- **A turn takes place when it is due.** -/
theorem turn (h : r.Follows pace start turns none c.now) {u : Turn}
    (ht : Turned r c u.kind r') (hu : u.responses = c.responses)
    (hturns : ∀ k, turns' k = turns k ++ if u.kind = k then [(c.now, u)] else []) :
    r'.Follows pace start turns' none c.now := by
  obtain ⟨hduration, hmoving, hchatting, dropped, hreleases⟩ := h
  have hcrashes : u.crashes = c.responses.crashes u.kind := by rw [Turn.crashes, hu]
  generalize hk : u.kind = k at ht hcrashes hturns
  have hmove := hturns .move
  have hchat := hturns .chat
  have hrelease := hturns .release
  cases ht with
  | moved t hm hdue =>
    have hengages : u.engages = c.responses.engages := by simp [Turn.engages, hk, hu]
    rw [if_pos rfl] at hmove
    rw [if_neg (by simp), List.append_nil] at hchat hrelease
    rw [hm] at hmoving
    refine ⟨hduration, ?_, hchat ▸ hchatting, dropped, ?_⟩
    · rw [hmove, ← hcrashes]
      exact hmoving.tick hdue u
    · rw [hmove, hrelease, ← hengages, hduration]
      exact hreleases.move u
  | chatted t hm hdue =>
    rw [if_pos rfl] at hchat
    rw [if_neg (by simp), List.append_nil] at hmove hrelease
    rw [hm] at hchatting
    refine ⟨hduration, hmove ▸ hmoving, ?_, dropped, hmove ▸ hrelease ▸ hreleases⟩
    rw [hchat, ← hcrashes]
    exact hchatting.tick hdue u
  | released i due hi hdue =>
    rw [if_pos rfl] at hrelease
    rw [if_neg (by simp), List.append_nil] at hmove hchat
    refine ⟨hduration, hmove ▸ hmoving, hchat ▸ hchatting, dropped, ?_⟩
    rw [hmove, hrelease]
    exact hreleases.release hi hdue u

/-- A routine that is cancelled stops its activities and drops its releases. -/
theorem fade (h : r.Follows pace start turns ended now) (hended : ended.isSome = true)
    {task : Task} {es : List Effect} (hs : Stepped r c task r' es) (hc : c.cancelled = true) :
    r'.Follows pace start turns ended now := by
  obtain ⟨hduration, hmoving, hchatting, dropped, hreleases⟩ := h
  cases hs with
  | stoppedMoving t hm =>
    exact ⟨hduration, (hm ▸ hmoving).stop hended, hchatting, dropped, hreleases⟩
  | stoppedChatting t hm =>
    exact ⟨hduration, hmoving, (hm ▸ hchatting).stop hended, dropped, hreleases⟩
  | dropped i due hi => exact ⟨hduration, hmoving, hchatting, _, hreleases.drop hended hi⟩
  | moved _ _ _ _ _ hc' | chatted _ _ _ _ hc' | released _ _ _ _ hc' => rw [hc] at hc'; cases hc'

theorem cancel (h : r.Follows pace start turns ended now) :
    r.Follows pace start turns (ended.or (some now)) now := by
  obtain ⟨dropped, hreleases⟩ := h.releases
  exact ⟨h.duration, h.moving.cancel, h.chatting.cancel, dropped, hreleases.cancel⟩

theorem pass (h : r.Follows pace start turns ended now) {d : Nat}
    (hd : ended = none → ∀ due ∈ r.moving.due?.toList ++ r.chatting.due?.toList ++ r.releases,
      now + d ≤ due) : r.Follows pace start turns ended (now + d) := by
  obtain ⟨dropped, hreleases⟩ := h.releases
  refine ⟨h.duration, h.moving.pass fun he due hdue => hd he due ?_,
    h.chatting.pass fun he due hdue => hd he due ?_, dropped,
    hreleases.pass fun he due hdue => hd he due ?_⟩ <;>
    simp_all

end Follows

end Routine

end BotFleet
