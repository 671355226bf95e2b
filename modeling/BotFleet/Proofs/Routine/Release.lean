import BotFleet.Proofs.Routine.Alone
import Mathlib.Data.List.Sort

/-!
# Letting go of `forward`

A movement tick that holds `forward` is followed by one release, after the duration of the pace.

* `Releases.exists_later`: the releases come in the order of the ticks that bring them;
* `LetGo`: some ticks that hold `forward`, up to some instant, and their releases;
* `RoutineRun.instantsOf`: when a routine has done something;
* `Client.Responses.releasing`, **`RoutineRun.Likewise.run`**: whether releases fail makes no
  difference to anything else;
* **`RoutineRun.holds_released`**: the law of the releases.
-/

namespace BotFleet

/-! ## The order of the releases -/

theorem Clock.wake_mono (duration : Nat) {t t' : Nat} (h : t ≤ t') :
    wake t duration ≤ wake t' duration :=
  Nat.add_le_add_right h _

theorem Series.sorted {start period upTo : Nat} {turns : List (Nat × Turn)}
    (h : Series start period turns upTo) : (turns.map Prod.fst).Pairwise (· ≤ ·) := by
  rw [h.instants]
  exact List.pairwise_le_range.map _ fun _ _ hle => Clock.tickAt_mono start period hle

/-- The releases come in the order of the ticks that bring them: those that took place answer the
first of these ticks, and those that did not answer the others. -/
theorem Releases.exists_later {duration now : Nat} {moves releases : List (Nat × Turn)}
    {pending dropped : List Nat} {ended : Option Nat}
    (h : Releases duration moves releases pending dropped ended now)
    (hmoves : (moves.map Prod.fst).Pairwise (· ≤ ·))
    (hreleases : (releases.map Prod.fst).Pairwise (· ≤ ·)) :
    ∃ later, ((moves.filter (·.2.engages)).map Prod.fst).map (Clock.wake · duration) =
      releases.map Prod.fst ++ later ∧ later.Perm (pending ++ dropped) := by
  have hsort := List.mergeSort_perm (pending ++ dropped) (· ≤ ·)
  have hdue : (((moves.filter (·.2.engages)).map Prod.fst).map (Clock.wake · duration)).Pairwise
      (· ≤ ·) := by
    have hsub : ((moves.filter (·.2.engages)).map Prod.fst).Sublist (moves.map Prod.fst) :=
      List.filter_sublist.map _
    exact (hmoves.sublist hsub).map _ fun _ _ => Clock.wake_mono duration
  have hsorted : (releases.map Prod.fst ++ (pending ++ dropped).mergeSort (· ≤ ·)).Pairwise
      (· ≤ ·) := by
    refine List.pairwise_append.mpr
      ⟨hreleases, List.pairwise_mergeSort' (· ≤ ·) _, fun t ht due hdue => ?_⟩
    obtain ⟨x, hx, rfl⟩ := List.mem_map.mp ht
    exact Nat.le_trans (h.le x hx) (h.ahead due (hsort.subset hdue))
  refine ⟨_, List.Perm.eq_of_pairwise (fun _ _ _ _ => Nat.le_antisymm) hdue hsorted ?_, hsort⟩
  rw [List.map_map]
  exact h.perm.symm.trans (hsort.symm.append_left _)

/-- Some ticks hold `forward`, and some releases answer them one by one, in their order and after
some duration: each tick is answered if its release is due before some instant, none if it is due
after it, and there are no other releases. -/
structure LetGo (duration : Nat) (held released : List Nat) (upTo : Nat) : Prop where
  due : ∀ i t : Nat, held[i]? = some t → Clock.wake t duration < upTo →
    released[i]? = some (Clock.wake t duration)
  late : ∀ i t : Nat, held[i]? = some t → upTo < Clock.wake t duration → released[i]? = none
  answers : ∀ i t : Nat, released[i]? = some t →
    ∃ t₀, held[i]? = some t₀ ∧ t = Clock.wake t₀ duration

theorem letGo_of_split {duration upTo : Nat} {held released later : List Nat}
    (hsplit : held.map (Clock.wake · duration) = released ++ later)
    (hlater : ∀ t ∈ later, upTo ≤ t) (hle : ∀ t ∈ released, t ≤ upTo) :
    LetGo duration held released upTo := by
  have hwake (i t : Nat) (ht : held[i]? = some t) :
      (released ++ later)[i]? = some (Clock.wake t duration) := by
    rw [← hsplit, List.getElem?_map, ht]
    rfl
  refine ⟨fun i t ht hdue => ?_, fun i t ht hlate => ?_, fun i t ht => ?_⟩
  · have hi := hwake i t ht
    by_cases hlt : i < released.length
    · rwa [List.getElem?_append_left hlt] at hi
    · rw [List.getElem?_append_right (Nat.le_of_not_lt hlt)] at hi
      have := hlater _ (List.mem_of_getElem? hi)
      omega
  · have hi := hwake i t ht
    by_contra hsome
    have hlt : i < released.length := by
      by_contra hge
      exact hsome (List.getElem?_eq_none (Nat.le_of_not_lt hge))
    rw [List.getElem?_append_left hlt] at hi
    have := hle _ (List.mem_of_getElem? hi)
    omega
  · have hlt := (List.getElem?_eq_some_iff.mp ht).1
    have hi : (held.map (Clock.wake · duration))[i]? = some t := by
      rw [hsplit, List.getElem?_append_left hlt, ht]
    rw [List.getElem?_map, Option.map_eq_some_iff] at hi
    obtain ⟨t₀, ht₀, rfl⟩ := hi
    exact ⟨t₀, ht₀, rfl⟩

theorem LetGo.length_le {duration upTo : Nat} {held released : List Nat}
    (h : LetGo duration held released upTo) : released.length ≤ held.length := by
  by_contra hlt
  have hlast : released[held.length]? = some released[held.length] :=
    List.getElem?_eq_getElem (Nat.lt_of_not_le hlt)
  obtain ⟨t₀, ht₀, -⟩ := h.answers _ _ hlast
  rw [List.getElem?_eq_none (Nat.le_refl _)] at ht₀
  cases ht₀

/-! ## What is seen of the turns -/

theorem Turn.Lawful.count_release {u : Turn} (h : u.Lawful) :
    u.deeds.count (.call (.setControl .forward false)) = (decide (u.kind = .release)).toNat := by
  unfold Lawful at h
  cases hk : u.kind <;> rw [hk] at h
  case move =>
    cases hs : u.responses.sight <;> rw [hs] at h
    case «at» p =>
      obtain ⟨q, -, hdeeds⟩ := h
      rw [hdeeds]
      by_cases hl : u.responses.look = .done <;> by_cases he : u.responses.engage = .done <;>
        simp [hl, he]
    all_goals
      rw [show u.deeds = [] from h]
      rfl
  case chat =>
    obtain ⟨line, -, hdeeds⟩ := h
    rw [hdeeds]
    by_cases hc : u.responses.chat = .done <;> simp [hc]
  case release =>
    rw [show u.deeds = [_] from h]
    rfl

theorem instants_of_turns {turns : List (Nat × Turn)} {e : Effect} {p : Turn → Bool}
    (h : ∀ x ∈ turns, x.2.deeds.count e = (p x.2).toNat) :
    ((turns.flatMap fun x => x.2.deeds.map (x.1, ·)).filter (·.2 = e)).map Prod.fst =
      (turns.filter (p ·.2)).map Prod.fst := by
  induction turns with
  | nil => rfl
  | cons x turns ih =>
    obtain ⟨hx, hturns⟩ := List.forall_mem_cons.mp h
    have hone : ((x.2.deeds.map (x.1, ·)).filter (·.2 = e)).map Prod.fst =
        List.replicate (p x.2).toNat x.1 := by
      rw [← hx, List.filter_map, List.map_map, List.count_eq_length_filter]
      exact List.map_const' ..
    rw [List.flatMap_cons, List.filter_append, List.map_append, ih hturns, hone]
    cases hp : p x.2 <;> simp [hp]

namespace RoutineRun

/-- When the routine has done something. -/
def instantsOf (r : RoutineRun) (e : Effect) : List Nat :=
  (r.journal.toList.filter (·.2 = e)).map Prod.fst

theorem instantsOf_run (identity : String) (responses : Client.Responses) (pace : Pace)
    (ms : List Move) {e : Effect} (he : e.isDeed = true) {p : Turn → Bool}
    (hp : ∀ u : Turn, u.Lawful → u.deeds.count e = (p u).toNat) :
    ((start identity responses false pace).run ms).instantsOf e =
      (((start identity responses false pace).history ms).turns.filter (p ·.2)).map Prod.fst := by
  have hdeeds := timedDeeds_run (start identity responses false pace) ms
  rw [← instants_of_turns fun x hx => hp x.2 (lawful_history _ ms x hx)]
  rw [show (start identity responses false pace).timedDeeds = [] from rfl, List.nil_append] at hdeeds
  rw [← hdeeds, timedDeeds, List.filter_filter, instantsOf]
  congr 2
  funext x
  by_cases hx : x.2 = e <;> simp [hx, he]

end RoutineRun

/-! ## Failing releases -/

/-- The same responses, but every release is done. -/
def Client.Responses.releasing (r : Client.Responses) : Client.Responses := { r with release := .done }

namespace RoutineRun

/-- The same move of a client that does every release. -/
def Move.releasing : Move → Move
  | .change responses => .change responses.releasing
  | m => m

/-- Two routines that have done the same, while the client of the one does every release. -/
structure Likewise (r r' : RoutineRun) : Prop where
  identity : r'.identity = r.identity
  responses : r'.responses = r.responses.releasing
  now : r'.now = r.now
  cancelled : r'.cancelled = r.cancelled
  routine : r'.routine = r.routine
  deeds : r'.timedDeeds = r.timedDeeds

/-- Only the log lines of a step tell whether a release fails. -/
theorem step_releasing (r : Routine) (c : Routine.Situation) (draw : Draw) (task : Routine.Task) :
    (r.step { c with responses := c.responses.releasing } draw task).1 = (r.step c draw task).1 ∧
      (r.step { c with responses := c.responses.releasing } draw task).2.filter Effect.isDeed =
        (r.step c draw task).2.filter Effect.isDeed := by
  cases task with
  | move => exact ⟨rfl, rfl⟩
  | chat => exact ⟨rfl, rfl⟩
  | release i =>
    have heffects : (Routine.releaseEffects
        { c with responses := c.responses.releasing }).filter Effect.isDeed =
        (Routine.releaseEffects c).filter Effect.isDeed :=
      (Routine.lawful_release { c with responses := c.responses.releasing }).trans
        (Routine.lawful_release c).symm
    cases hi : r.releases[i]? with
    | none => simp only [Routine.step, hi, and_self]
    | some due =>
      simp only [Routine.step, hi]
      split
      · exact ⟨rfl, rfl⟩
      · split
        · exact ⟨rfl, heffects⟩
        · exact ⟨rfl, rfl⟩

variable {r r' : RoutineRun}

theorem Likewise.move (h : Likewise r r') (m : Move) : Likewise (r.move m) (r'.move m.releasing) := by
  obtain ⟨identity, responses, now, cancelled, routine, tally, journal⟩ := r'
  obtain ⟨rfl, rfl, rfl, rfl, rfl, hdeeds⟩ := h
  cases m with
  | act draw task =>
    obtain ⟨hroutine, heffects⟩ := step_releasing r.routine r.situation draw task
    refine ⟨rfl, rfl, rfl, rfl, hroutine, ?_⟩
    refine (timedDeeds_advance ..).trans (.trans ?_ (timedDeeds_advance ..).symm)
    exact congrArg₂ _ hdeeds (congrArg _ heffects)
  | change responses => exact ⟨rfl, rfl, rfl, rfl, rfl, hdeeds⟩
  | cancel => exact ⟨rfl, rfl, rfl, rfl, rfl, hdeeds⟩
  | pass d => exact ⟨rfl, rfl, rfl, rfl, rfl, hdeeds⟩

theorem Likewise.allows (h : Likewise r r') (m : Move) : r'.Allows m.releasing ↔ r.Allows m := by
  obtain ⟨identity, responses, now, cancelled, routine, tally, journal⟩ := r'
  obtain ⟨rfl, rfl, rfl, rfl, rfl, -⟩ := h
  cases m with
  | pass d =>
    refine and_congr_left' (forall_congr' fun task => ?_)
    -- what is ready depends on the time and on the cancellation only
    cases task <;> exact Iff.rfl
  | _ => exact Iff.rfl

/-- **Whether releases fail makes no difference to anything else.** -/
theorem Likewise.run (h : Likewise r r') (ms : List Move) :
    Likewise (r.run ms) (r'.run (ms.map Move.releasing)) ∧
      (r'.Timely (ms.map Move.releasing) ↔ r.Timely ms) := by
  induction ms generalizing r r' with
  | nil => exact ⟨h, Iff.rfl⟩
  | cons m ms ih =>
    obtain ⟨hrun, htimely⟩ := ih (h.move m)
    exact ⟨hrun, and_congr (h.allows m) htimely⟩

/-! ## The law of the releases -/

theorem lt_of_atRest (h : r.AtRest) {due : Nat} (hdue : due ∈ r.routine.releases) : r.now < due := by
  obtain ⟨i, hi⟩ := List.mem_iff_getElem?.mp hdue
  have hready := h (.release i)
  rw [Routine.ready, hi] at hready
  exact Nat.lt_of_not_le (of_decide_eq_false (Bool.or_eq_false_iff.mp hready).2)

section Law

variable (identity : String) (responses : Client.Responses) (pace : Pace) {ms : List Move}

theorem letGo_run (h : (start identity responses false pace).Timely ms) :
    let r := (start identity responses false pace).run ms
    let history := (start identity responses false pace).history ms
    let held := ((history.turnsOf .move).filter (·.2.engages)).map Prod.fst
    let released := (history.turnsOf .release).map Prod.fst
    LetGo pace.moveDuration held released (history.endedAt.getD r.now) ∧
      (r.AtRest → history.endedAt = none → LetGo pace.moveDuration held released (r.now + 1)) := by
  intro r history held released
  obtain ⟨hfollows, -⟩ := keeps_run identity responses pace h
  obtain ⟨dropped, hreleases⟩ := hfollows.releases
  have hsorted : released.Pairwise (· ≤ ·) := by
    have hturns : (history.turnsOf .release).Pairwise fun x y => x.1 ≤ y.1 := by
      refine List.Pairwise.filter _ (((sorted_history _ ms).2).filterMap _ ?_)
      rintro ⟨t, m⟩ ⟨t', m'⟩ hle x hx y hy
      obtain ⟨u, -, rfl⟩ := Option.map_eq_some_iff.mp hx
      obtain ⟨u', -, rfl⟩ := Option.map_eq_some_iff.mp hy
      exact hle
    exact hturns.map _ fun _ _ => id
  obtain ⟨later, hsplit, hlater⟩ :=
    hreleases.exists_later hfollows.moving.series.sorted hsorted
  have hle : ∀ t ∈ released, t ≤ history.endedAt.getD r.now := by
    intro t ht
    obtain ⟨x, hx, rfl⟩ := List.mem_map.mp ht
    exact hreleases.le x hx
  refine ⟨letGo_of_split hsplit (fun t ht => hreleases.ahead t (hlater.subset ht)) hle, ?_⟩
  intro hrest hnone
  refine letGo_of_split hsplit (fun t ht => ?_) fun t ht => ?_
  · have hmem := hlater.subset ht
    rw [hreleases.kept hnone, List.append_nil] at hmem
    exact lt_of_atRest hrest hmem
  · have := hle t ht
    rw [hnone] at this
    exact Nat.le_succ_of_le this

end Law

/-- **What is held is let go of, once and in time.** Let a routine run in time, whatever its pace is,
and however its client's responses change. Then

* the movement ticks that have turned and have held `forward` are answered one by one by the releases,
  after the duration of the pace, or the longest sleep if that is shorter: each of them by one if that
  is before the instant at which the routine was cancelled, and by none if it is after it;
* while the routine is not cancelled, at rest all is let go of that is due by now;
* nothing else lets go of `forward`, so that it is never let go of more often than it was held;
* all that the routine does with its client belongs to its turns, and a tick counts a move exactly
  if it has turned and has held `forward`;
* it would have gone through the same, at the same instants, if no release had failed. -/
theorem holds_released (identity : String) (responses : Client.Responses) (pace : Pace)
    (ms : List Move) (htimely : (start identity responses false pace).Timely ms) :
    let r := (start identity responses false pace).run ms
    let history := (start identity responses false pace).history ms
    let held := ((history.turnsOf .move).filter (·.2.engages)).map Prod.fst
    let released := r.instantsOf (.call (.setControl .forward false))
    let r' := (start identity responses.releasing false pace).run (ms.map Move.releasing)
    LetGo pace.moveDuration held released (history.endedAt.getD r.now) ∧
      (r.AtRest → history.endedAt = none → LetGo pace.moveDuration held released (r.now + 1)) ∧
      released.length ≤ held.length ∧
      held = r.instantsOf (.count .moves) ∧
      (r.timedDeeds = history.turns.flatMap (fun x => x.2.deeds.map (x.1, ·)) ∧
        ∀ x ∈ history.turns, x.2.Lawful) ∧
      ((start identity responses.releasing false pace).Timely (ms.map Move.releasing) ∧
        r'.routine = r.routine ∧ r'.timedDeeds = r.timedDeeds) := by
  intro r history held released r'
  have hreleased : released = (history.turnsOf .release).map Prod.fst :=
    instantsOf_run identity responses pace ms rfl (p := fun u => decide (u.kind = .release))
      fun u hu => hu.count_release
  have hheld : held = r.instantsOf (.count .moves) := by
    rw [instantsOf_run identity responses pace ms rfl fun u hu => hu.count .moves]
    show (List.filter _ (List.filter _ history.turns)).map Prod.fst = _
    rw [List.filter_filter]
    congr 2
    funext x
    cases hk : x.2.kind <;> simp [Turn.engages, Turn.counts, hk]
  obtain ⟨hletGo, hrest⟩ := letGo_run identity responses pace htimely
  rw [← hreleased] at hletGo hrest
  have hlike : Likewise (start identity responses false pace)
      (start identity responses.releasing false pace) := ⟨rfl, rfl, rfl, rfl, rfl, rfl⟩
  obtain ⟨hrun, htimely'⟩ := hlike.run ms
  exact ⟨hletGo, hrest, hletGo.length_le, hheld,
    ⟨timedDeeds_run _ ms, lawful_history _ ms⟩, htimely'.mpr htimely, hrun.routine, hrun.deeds⟩

/-- A bot that is cancelled between its third movement and the release, while its releases overlap
its movements and fail, and one tick finds no position. -/
theorem holds_released_overlapping :
    let first := start "Bot1" { sight := .at default } false ⟨2, 3, 100⟩
    let move := Move.act .steady .move
    let release := Move.act .steady (.release 0)
    let ms := [.pass 2, move, .pass 2, move, .change { release := .refused .closed }, .pass 1,
      release, .pass 1, move, .pass 1, release, .change { sight := .at default }, .pass 1, move,
      .pass 1, .cancel, move, .act .steady .chat, release, .pass 10]
    let r := first.run ms
    let history := first.history ms
    let held := ((history.turnsOf .move).filter (·.2.engages)).map Prod.fst
    let released := r.instantsOf (.call (.setControl .forward false))
    first.Timely ms ∧ history.endedAt = some 9 ∧ held = [2, 4, 8] ∧ released = [5, 7] ∧
      LetGo 3 held released 9 ∧ released.length ≤ held.length := by
  intro first move release ms r history held released
  have htimely : first.Timely ms := by decide
  have hended : history.endedAt = some 9 := by decide
  obtain ⟨hletGo, -, hlength, -⟩ :=
    holds_released "Bot1" { sight := .at default } ⟨2, 3, 100⟩ ms htimely
  have hupTo : history.endedAt.getD r.now = 9 := by rw [hended]; rfl
  exact ⟨htimely, hended, by decide, by decide, hupTo ▸ hletGo, hlength⟩

/-- A bot that is to hold `forward` for longer than it can sleep lets go of it too early. -/
theorem released_before_long_duration :
    let first := start "Bot1" { sight := .at default } false
      ⟨500000000000, 1000000000000, 3000000000000⟩
    let ms := [.pass 500000000000, .act .steady .move, .pass 500000000000, .act .steady .move,
      .pass 446080000000, .act .steady (.release 0)]
    let history := first.history ms
    let held := ((history.turnsOf .move).filter (·.2.engages)).map Prod.fst
    first.Timely ms ∧ history.endedAt = none ∧
      ∃ t ∈ (first.run ms).instantsOf (.call (.setControl .forward false)),
        ∀ t₀ ∈ held, t ≠ t₀ + 1000000000000 := by
  intro first ms history held
  have hheld : held = [500000000000, 1000000000000] := by decide
  have hreleased : (first.run ms).instantsOf (.call (.setControl .forward false)) =
      [1446080000000] := by decide
  rw [hheld, hreleased]
  exact ⟨by decide, by decide, 1446080000000, by simp, by simp⟩

end RoutineRun

end BotFleet
