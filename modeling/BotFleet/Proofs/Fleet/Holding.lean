import BotFleet.Fleet.Holding
import BotFleet.Proofs.Fleet.Watching
import Mathlib.Data.Nat.Find

/-!
# When the holding of a fleet ends

A fleet is held until a stop, the end of some time, or the end of its last session, whichever comes
first, and goes on meanwhile as if nobody held it.

* `latest`: the latest of some instants;
* `EndsFirst`, **`endsFirst_iff`**, `exists_endsFirst_iff`: which of three ends comes first;
* `Fleet.Alike`, **`Fleet.Alike.run`**, **`Fleet.Alike.after`**: fleets that differ in nothing but
  their own logs, and go on alike;
* **`Fleet.exists_end`**, `Fleet.forall_hasEnded_iff`: every session has an instant at which it ends,
  or never does, and all of them have ended from the latest on;
* **`Fleet.holdUntil_cases`**: a holding ends with what ends it first;
* **`Fleet.hold_ends_first`**: the law of the holding.
-/

namespace BotFleet

/-! ## The earliest of three instants -/

/-- The latest of some instants, if all of them come. -/
def latest : List (Option Nat) → Option Nat
  | [] => some 0
  | t :: ts => do return max (← t) (← latest ts)

theorem exists_latest_le_iff (ts : List (Option Nat)) (d : Nat) :
    (∃ t ∈ latest ts, t ≤ d) ↔ ∀ t? ∈ ts, ∃ t ∈ t?, t ≤ d := by
  induction ts with
  | nil => simp [latest]
  | cons t? ts ih =>
    rw [List.forall_mem_cons, ← ih, latest]
    cases t? with
    | none => simp
    | some t =>
      cases latest ts with
      | none => simp
      | some t' =>
        have hmax : (do return max (← some t) (← some t') : Option Nat) = some (max t t') := rfl
        simp only [hmax, Option.mem_some_iff, exists_eq_left', Nat.max_le]

/-- What ends a holding, and after how long: the stop, the end of the time, or that of the sessions,
whichever comes first. At the same instant a stop comes before the time, and the time before the
sessions. -/
inductive EndsFirst (stop elapsed ended : Option Nat) : Nat → HoldExit → Prop where
  | stop {d : Nat} (hd : stop = some d) (helapsed : ∀ t ∈ elapsed, d ≤ t)
      (hended : ∀ t ∈ ended, d ≤ t) : EndsFirst stop elapsed ended d .stop
  | elapsed {d : Nat} (hd : elapsed = some d) (hstop : ∀ t ∈ stop, d < t)
      (hended : ∀ t ∈ ended, d ≤ t) : EndsFirst stop elapsed ended d .elapsed
  | allOver {d : Nat} (hd : ended = some d) (hstop : ∀ t ∈ stop, d < t)
      (helapsed : ∀ t ∈ elapsed, d < t) : EndsFirst stop elapsed ended d .allOver

/-- What has ended a holding after some time. -/
def exitBy (stop elapsed ended : Option Nat) (d : Nat) : Option HoldExit :=
  if stop.any (· ≤ d) then some .stop
  else if elapsed.any (· ≤ d) then some .elapsed
  else if ended.any (· ≤ d) then some .allOver
  else none

section EndsFirst

variable {stop elapsed ended : Option Nat} {d : Nat} {e : HoldExit}

theorem any_le_eq_false_iff {t? : Option Nat} : t?.any (· ≤ d) = false ↔ ∀ t ∈ t?, d < t := by
  cases t? <;> simp

theorem exitBy_eq_none_iff : exitBy stop elapsed ended d = none ↔
    (∀ t ∈ stop, d < t) ∧ (∀ t ∈ elapsed, d < t) ∧ ∀ t ∈ ended, d < t := by
  rw [← any_le_eq_false_iff, ← any_le_eq_false_iff, ← any_le_eq_false_iff, exitBy]
  cases stop.any (· ≤ d) <;> cases elapsed.any (· ≤ d) <;> cases ended.any (· ≤ d) <;> simp

theorem forall_exitBy_eq_none_iff : (∀ k, k < d → exitBy stop elapsed ended k = none) ↔
    (∀ t ∈ stop, d ≤ t) ∧ (∀ t ∈ elapsed, d ≤ t) ∧ ∀ t ∈ ended, d ≤ t := by
  simp only [exitBy_eq_none_iff]
  constructor
  · intro h
    refine ⟨fun t ht => ?_, fun t ht => ?_, fun t ht => ?_⟩ <;>
      refine Nat.le_of_not_lt fun hlt => Nat.lt_irrefl t ?_
    · exact (h t hlt).1 t ht
    · exact (h t hlt).2.1 t ht
    · exact (h t hlt).2.2 t ht
  · rintro ⟨hstop, helapsed, hended⟩ k hk
    exact ⟨fun t ht => Nat.lt_of_lt_of_le hk (hstop t ht),
      fun t ht => Nat.lt_of_lt_of_le hk (helapsed t ht),
      fun t ht => Nat.lt_of_lt_of_le hk (hended t ht)⟩

theorem endsFirst_iff : EndsFirst stop elapsed ended d e ↔
    exitBy stop elapsed ended d = some e ∧ ∀ k, k < d → exitBy stop elapsed ended k = none := by
  have hexact {t? : Option Nat} (hd : t? = some d) : ∀ t ∈ t?, d ≤ t := by
    rintro t ht
    cases hd.symm.trans ht
    exact Nat.le_refl d
  have hlate {t? : Option Nat} (ht : ∀ t ∈ t?, d < t) : ∀ t ∈ t?, d ≤ t :=
    fun t hd => Nat.le_of_lt (ht t hd)
  have hcome {t? : Option Nat} (ht : t?.any (· ≤ d) = true) (hd : ∀ t ∈ t?, d ≤ t) :
      t? = some d := by
    obtain ⟨t, rfl, hle⟩ := (Option.any_eq_true ..).mp ht
    exact congrArg some (Nat.le_antisymm (of_decide_eq_true hle) (hd t rfl))
  rw [forall_exitBy_eq_none_iff]
  constructor
  · intro h
    cases h with
    | stop hd helapsed hended => exact ⟨by simp [exitBy, hd], hexact hd, helapsed, hended⟩
    | elapsed hd hstop hended =>
      have hopen := any_le_eq_false_iff.mpr hstop
      exact ⟨by simp [exitBy, hd, hopen], hlate hstop, hexact hd, hended⟩
    | allOver hd hstop helapsed =>
      have hopen := any_le_eq_false_iff.mpr hstop
      have hopen' := any_le_eq_false_iff.mpr helapsed
      exact ⟨by simp [exitBy, hd, hopen, hopen'], hlate hstop, hlate helapsed, hexact hd⟩
  · rintro ⟨he, hstop, helapsed, hended⟩
    unfold exitBy at he
    split at he
    · cases he
      exact .stop (hcome ‹_› hstop) helapsed hended
    · rename_i hstop'
      rw [Bool.not_eq_true, any_le_eq_false_iff] at hstop'
      split at he
      · cases he
        exact .elapsed (hcome ‹_› helapsed) hstop' hended
      · rename_i helapsed'
        rw [Bool.not_eq_true, any_le_eq_false_iff] at helapsed'
        split at he
        · cases he
          exact .allOver (hcome ‹_› hended) hstop' helapsed'
        · cases he

theorem EndsFirst.unique {d' : Nat} {e' : HoldExit} (h : EndsFirst stop elapsed ended d e)
    (h' : EndsFirst stop elapsed ended d' e') : d = d' ∧ e = e' := by
  obtain ⟨he, hbefore⟩ := endsFirst_iff.mp h
  obtain ⟨he', hbefore'⟩ := endsFirst_iff.mp h'
  rcases Nat.lt_trichotomy d d' with hlt | rfl | hlt
  · cases (hbefore' d hlt).symm.trans he
  · exact ⟨rfl, Option.some.inj (he.symm.trans he')⟩
  · cases (hbefore d' hlt).symm.trans he'

theorem exists_endsFirst_iff : (∃ d e, EndsFirst stop elapsed ended d e) ↔
    stop.isSome = true ∨ elapsed.isSome = true ∨ ended.isSome = true := by
  constructor
  · rintro ⟨d, e, hstop | helapsed | hended⟩ <;> simp [*]
  · intro h
    have hex : ∃ d, (exitBy stop elapsed ended d).isSome = true := by
      by_contra hnone
      have hnone (d : Nat) : exitBy stop elapsed ended d = none := by
        simpa using not_exists.mp hnone d
      have hirrefl {t? : Option Nat} (ht : ∀ d, ∀ t ∈ t?, d < t) : t?.isSome ≠ true := by
        cases t? with
        | none => simp
        | some t => exact absurd (ht t t rfl) (Nat.lt_irrefl t)
      rcases h with h | h | h
      · exact hirrefl (fun d => (exitBy_eq_none_iff.mp (hnone d)).1) h
      · exact hirrefl (fun d => (exitBy_eq_none_iff.mp (hnone d)).2.1) h
      · exact hirrefl (fun d => (exitBy_eq_none_iff.mp (hnone d)).2.2) h
    obtain ⟨e, he⟩ := Option.isSome_iff_exists.mp (Nat.find_spec hex)
    exact ⟨_, e, endsFirst_iff.mpr ⟨he, fun k hk => by simpa using Nat.find_min hex hk⟩⟩

end EndsFirst

/-! ## Fleets that are alike -/

/-- Two fleets with the same sessions at the same instant. Only what they themselves have logged may
be different. -/
structure Fleet.Alike (f f' : Fleet) : Prop where
  now : f.now = f'.now
  seats : f.seats = f'.seats
  tally : f.tally = f'.tally

namespace Fleet.Alike

variable {f f' : Fleet}

theorem exists_journal (h : f.Alike f') : ∃ journal, f' = { f with journal } := by
  obtain ⟨hnow, hseats, htally⟩ := h
  cases f
  cases f'
  cases hnow
  cases hseats
  cases htally
  exact ⟨_, rfl⟩

theorem logExit (f : Fleet) (e : HoldExit) : (f.logExit e).Alike f := by
  cases e <;> exact ⟨rfl, rfl, rfl⟩

theorem move (h : f.Alike f') (m : Move) : (f.move m).Alike (f'.move m) := by
  obtain ⟨journal, rfl⟩ := h.exists_journal
  cases m with
  | act i draw task =>
    simp only [Fleet.move, step]
    cases f.seats[i]? <;> exact ⟨rfl, rfl, rfl⟩
  | ask i =>
    simp only [Fleet.move, pollLogin]
    cases f.seats[i]? <;> exact ⟨rfl, rfl, rfl⟩
  | _ => exact ⟨rfl, rfl, rfl⟩

theorem run (h : f.Alike f') (ms : List Move) : (f.run ms).Alike (f'.run ms) := by
  induction ms generalizing f f' with
  | nil => exact h
  | cons m ms ih => exact ih (h.move m)

theorem coherent (h : f.Alike f') (hc : f'.Coherent) : f.Coherent := by
  intro seat hseat
  exact hc seat (h.seats ▸ hseat)

theorem after (h : f.Alike f') (draw : Draw) (d : Nat) :
    ((timed draw).after d f).Alike ((timed draw).after d f') := by
  have hsettle {f f' : Fleet} (h : f.Alike f') : (f.settle draw).Alike (f'.settle draw) := by
    obtain ⟨journal, rfl⟩ := h.exists_journal
    exact ⟨rfl, rfl, rfl⟩
  induction d with
  | zero => exact hsettle h
  | succ d ih => exact hsettle (ih.move (.pass 1))

end Fleet.Alike

/-! ## The law of the holding -/

namespace Fleet

variable {f : Fleet} {draw : Draw} {d : Nat}

theorem now_after (f : Fleet) (d : Nat) : ((timed draw).after d f).now = f.now + d := by
  induction d with
  | zero => rfl
  | succ d ih => exact congrArg (· + 1) ih

/-- There is an instant from which on something holds that goes on once it has begun, or it never
does. -/
theorem exists_begin {p : Nat → Bool} (hp : ∀ d, p d = true → p (d + 1) = true) :
    ∃ t? : Option Nat, ∀ d, p d = true ↔ ∃ t ∈ t?, t ≤ d := by
  by_cases hsome : ∃ d, p d = true
  · refine ⟨some (Nat.find hsome), fun d => ?_⟩
    constructor
    · exact fun hd => ⟨_, rfl, Nat.find_min' hsome hd⟩
    · rintro ⟨t, ht, hle⟩
      cases ht
      exact Nat.le_induction (Nat.find_spec hsome) (fun d _ hd => hp d hd) d hle
  · exact ⟨none, fun d => ⟨fun hd => absurd ⟨d, hd⟩ hsome, by simp⟩⟩

/-- **Every session has an instant at which it ends**, or never does. -/
theorem exists_end (h : f.Coherent) (draw : Draw) (i : Nat) : ∃ t? : Option Nat, ∀ d,
    ((timed draw).after d f).hasEnded i = true ↔ ∃ t ∈ t?, t ≤ d := by
  refine exists_begin fun d hd => ?_
  have hc := (steady_timed draw []).keeps_after h d
  have hpass := goes_pass ((timed draw).after d f) 1
  exact (goes_settle (hpass.coherent hc) draw).hasEnded (hpass.coherent hc)
    (hpass.hasEnded hc hd)

theorem forall_hasEnded_iff {ends : Nat → Option Nat}
    (hends : ∀ i, f.hasEnded i = true ↔ ∃ t ∈ ends i, t ≤ d) {count : Nat}
    (hcount : f.seats.length = count) : (∀ i, f.hasEnded i = true) ↔
      ∃ t ∈ latest ((List.range count).map ends), t ≤ d := by
  rw [exists_latest_le_iff]
  simp only [List.mem_map, List.mem_range, forall_exists_index, and_imp, forall_apply_eq_imp_iff₂,
    ← hends]
  refine ⟨fun hall i _ => hall i, fun hall i => ?_⟩
  rcases Nat.lt_or_ge i count with hi | hi
  · exact hall i hi
  · exact hasEnded_of_length_le (hcount ▸ hi)

theorem length_after (h : f.Coherent) (draw : Draw) (d : Nat) :
    ((timed draw).after d f).seats.length = f.seats.length := by
  have hsettle {f : Fleet} (h : f.Coherent) : (f.settle draw).seats.length = f.seats.length :=
    (goes_settle h draw).length
  induction d with
  | zero => exact hsettle h
  | succ d ih =>
    have hpass := goes_pass ((timed draw).after d f) 1
    exact (hsettle (hpass.coherent ((steady_timed draw []).keeps_after h d))).trans
      (hpass.length.trans ih)

end Fleet

theorem Holding.exit?_eq (h : Holding) (w : Watching) : h.exit? w =
    exitBy h.stopAt h.elapsedAt (if w.isDone then some 0 else none) w.fleet.now := by
  rw [exit?, exitBy]
  cases w.isDone <;> rfl

theorem Holding.exit?_pass {h : Holding} {draw : Draw} {w : Watching} (hopen : h.exit? w = none)
    {d : Nat} (hd : ∀ t ∈ (Watching.timed draw h.instants).wait? w, d < t) :
    h.exit? ((Watching.timed draw h.instants).pass d w) = none := by
  have halarms := (Fleet.of_lt_sooner (hd : ∀ t ∈ (Fleet.timed draw h.instants).wait? w.fleet, _)).2
  have hdone : ((Watching.timed draw h.instants).pass d w).isDone = w.isDone := by
    simp [Watching.timed, Watching.isDone, Fleet.pass]
  rw [exit?_eq, exitBy_eq_none_iff] at hopen ⊢
  obtain ⟨hstop, helapsed, hended⟩ := hopen
  refine ⟨fun t ht => ?_, fun t ht => ?_, fun t ht => ?_⟩
  · exact Fleet.add_lt_of_lt_waitFor halarms
      (List.mem_append_left _ (Option.mem_toList.mpr ht)) (hstop t ht)
  · exact Fleet.add_lt_of_lt_waitFor halarms
      (List.mem_append_right _ (Option.mem_toList.mpr ht)) (helapsed t ht)
  · rw [hdone] at ht
    have hnow := hended t ht
    split at ht
    · cases ht
      exact absurd hnow (Nat.not_lt_zero _)
    · cases ht

theorem Holding.outcome_runUntil {f : Fleet} (hc : f.Coherent) (h : Holding) (draw : Draw)
    (limit : Nat) : (Watching.timed draw h.instants).Outcome (fun w => (h.exit? w).isSome) limit
      (.start f) ((Watching.timed draw h.instants).runUntil (fun w => (h.exit? w).isSome) limit
        (.start f)) := by
  refine (Watching.steady_timed draw h.instants).outcome_runUntil (fun w _ _ hopen d hd => ?_)
    limit (Watching.sound_start hc)
  rw [Option.isSome_eq_false_iff, Option.isNone_iff_eq_none] at hopen ⊢
  exact exit?_pass hopen hd

theorem Holding.exit?_after {f : Fleet} (hc : f.Coherent) (h : Holding) {draw : Draw}
    {alarms : List Nat} {ended : Option Nat} {d : Nat}
    (hended : (∀ i, ((Fleet.timed draw).after d f).hasEnded i = true) ↔ ∃ t ∈ ended, t ≤ d) :
    h.exit? ((Watching.timed draw alarms).after d (.start f)) =
      exitBy (h.stopAt.map (· - f.now)) (h.elapsedAt.map (· - f.now)) ended d := by
  have hfleet : (Watching.start f).fleet = f := Watching.fleet_proceedBy ..
  have hdone : ((Watching.timed draw alarms).after d (.start f)).isDone = true ↔ _ :=
    Watching.isDone_after (Watching.sound_start hc) d
  rw [hfleet, hended] at hdone
  have hany (t? : Option Nat) : t?.any (· ≤ f.now + d) = (t?.map (· - f.now)).any (· ≤ d) := by
    cases t? with
    | none => rfl
    | some t =>
      show decide (t ≤ f.now + d) = decide (t - f.now ≤ d)
      exact decide_eq_decide.mpr (by omega)
  have hdone' : ((Watching.timed draw alarms).after d (.start f)).isDone = ended.any (· ≤ d) := by
    rw [Bool.eq_iff_iff, hdone, Option.any_eq_true]
    simp
  rw [exit?, Watching.fleet_after, hfleet, Fleet.now_after, hany, hany, hdone', exitBy]

namespace Fleet

variable {f : Fleet} {draw : Draw} {ended : Option Nat} {limit : Nat}

/-- A holding ends with what ends it first, or not within the time that it may take. -/
theorem holdUntil_cases (hc : f.Coherent) (duration stopAt : Option Nat) (hlimit : 0 < limit)
    (hended : ∀ d, (∀ i, ((timed draw).after d f).hasEnded i = true) ↔ ∃ t ∈ ended, t ≤ d) :
    (∃ d e, d ≤ limit ∧
      EndsFirst (stopAt.map (· - f.now)) (duration.map (min · Clock.longestSleep)) ended d e ∧
      f.holdUntil draw duration stopAt limit = (((timed draw).after d f).logExit e, some e)) ∨
    ((∀ d e,
      EndsFirst (stopAt.map (· - f.now)) (duration.map (min · Clock.longestSleep)) ended d e →
        limit < d) ∧
      f.holdUntil draw duration stopAt limit = ((timed draw).after limit f, none)) := by
  let holding : Holding := ⟨stopAt, duration.map (Clock.wake f.now)⟩
  have hfleet : (Watching.start f).fleet = f := Watching.fleet_proceedBy ..
  have helapsed : (duration.map (Clock.wake f.now)).map (· - f.now) =
      duration.map (min · Clock.longestSleep) := by
    rw [Option.map_map]
    exact congrArg (Option.map · duration) (funext fun d => Nat.add_sub_cancel_left ..)
  have hexit (d : Nat) : holding.exit? ((Watching.timed draw holding.instants).after d (.start f)) =
      exitBy (stopAt.map (· - f.now)) (duration.map (min · Clock.longestSleep)) ended d := by
    rw [← helapsed]
    exact holding.exit?_after hc (hended d)
  have hrun := holding.outcome_runUntil hc draw limit
  have hhold : f.holdUntil draw duration stopAt limit =
      holding.release ((Watching.timed draw holding.instants).runUntil
        (fun w => (holding.exit? w).isSome) limit (.start f)).1 := by
    rw [holdUntil, Timed.await, if_neg (Nat.ne_of_gt hlimit)]
  rw [hhold]
  generalize (Watching.timed draw holding.instants).runUntil _ limit _ = result at hrun
  cases hrun with
  | reached d hd hdone hopen =>
    obtain ⟨e, he⟩ := Option.isSome_iff_exists.mp hdone
    refine .inl ⟨d, e, hd, endsFirst_iff.mpr ⟨hexit d ▸ he, fun k hk => ?_⟩, ?_⟩
    · rw [← hexit k]
      simpa using hopen k hk
    · rw [Holding.release, he, Watching.fleet_after, hfleet]
  | missed hopen =>
    have hnone (k : Nat) (hk : k ≤ limit) : exitBy (stopAt.map (· - f.now))
        (duration.map (min · Clock.longestSleep)) ended k = none := by
      rw [← hexit k]
      simpa using hopen k hk
    refine .inr ⟨fun d e he => Nat.lt_of_not_le fun hd => ?_, ?_⟩
    · cases (hnone d hd).symm.trans (endsFirst_iff.mp he).1
    · rw [Holding.release, hexit limit, hnone limit (Nat.le_refl limit), Watching.fleet_after,
        hfleet]

/-- **The law of the holding.** Each session of a fleet has an instant at which it ends, or never
does. Whatever stop and whatever time a holding is given,

* it ends at the first of the stop, the end of the time, and the latest end of the sessions, and says
  which of them it was;
* it goes on as long as none of them comes, and one of them comes first if any does;
* until then the fleet does what it does when it is not held, and it goes on so after that. -/
theorem hold_ends_first (ms : List Move) (draw : Draw) (duration stopAt : Option Nat) :
    let f := Fleet.run {} ms
    let later (d : Nat) := (timed draw).run d f
    ∃ ends : Nat → Option Nat,
      (∀ i d, (later d).hasEnded i = true ↔ ∃ t ∈ ends i, t ≤ d) ∧
      let stop := stopAt.map (· - f.now)
      let elapsed := duration.map (min · Clock.longestSleep)
      let ended := latest ((List.range f.seats.length).map ends)
      (∀ d e limit, EndsFirst stop elapsed ended d e → 0 < limit → d ≤ limit →
        f.holdUntil draw duration stopAt limit = ((later d).logExit e, some e)) ∧
      (∀ limit, (∀ d e, EndsFirst stop elapsed ended d e → limit < d) → 0 < limit →
        f.holdUntil draw duration stopAt limit = (later limit, none)) ∧
      ((∃ d e, EndsFirst stop elapsed ended d e) ↔
        stop.isSome = true ∨ elapsed.isSome = true ∨ ended.isSome = true) ∧
      ∀ limit, 0 < limit → ∃ d, d ≤ limit ∧
        let held := (f.holdUntil draw duration stopAt limit).1
        held.Alike (later d) ∧ (∀ ms', (held.run ms').Alike ((later d).run ms')) ∧
          ∀ d', ((timed draw).run d' held).Alike (later (d + d')) := by
  intro f later
  have hc : f.Coherent := coherent_run_empty ms
  have hsteady := steady_timed draw []
  have hlater (d : Nat) : later d = (timed draw).after d f := hsteady.run_eq_after d hc
  obtain ⟨ends, hends⟩ := Classical.skolem.mp (exists_end hc draw)
  refine ⟨ends, fun i d => hlater d ▸ hends i d, ?_⟩
  intro stop elapsed ended
  have hended (d : Nat) : (∀ i, ((timed draw).after d f).hasEnded i = true) ↔ ∃ t ∈ ended, t ≤ d :=
    forall_hasEnded_iff (hends · d) (length_after hc draw d)
  refine ⟨fun d e limit he hlimit hd => ?_, fun limit hnone hlimit => ?_, exists_endsFirst_iff,
    fun limit hlimit => ?_⟩
  · rcases holdUntil_cases hc duration stopAt hlimit hended with ⟨d', e', -, he', hheld⟩ | ⟨hnone, -⟩
    · obtain ⟨rfl, rfl⟩ := he.unique he'
      rw [hheld, hlater]
    · exact absurd (hnone d e he) (Nat.not_lt_of_le hd)
  · rcases holdUntil_cases hc duration stopAt hlimit hended with ⟨d, e, hd, he, -⟩ | ⟨-, hheld⟩
    · exact absurd (hnone d e he) (Nat.not_lt_of_le hd)
    · rw [hheld, hlater]
  · obtain ⟨d, hd, halike⟩ : ∃ d, d ≤ limit ∧
        (f.holdUntil draw duration stopAt limit).1.Alike ((timed draw).after d f) := by
      rcases holdUntil_cases hc duration stopAt hlimit hended with ⟨d, e, hd, -, hheld⟩ | ⟨-, hheld⟩
      · exact ⟨d, hd, hheld ▸ Alike.logExit _ e⟩
      · exact ⟨limit, Nat.le_refl limit, hheld ▸ ⟨rfl, rfl, rfl⟩⟩
    refine ⟨d, hd, hlater d ▸ halike, fun ms' => hlater d ▸ halike.run ms', fun d' => ?_⟩
    rw [hsteady.run_eq_after d' (halike.coherent (hsteady.keeps_after hc d)), hlater,
      ← hsteady.after_after hc d d']
    exact halike.after draw d'

/-- Two sessions: one is kicked after seven milliseconds, and connecting crashes for the other
before. The stop comes when the last of them ends, and counts as what ended the holding. -/
theorem hold_ends_first_together :
    let ms : List Move := [
      .launch ⟨"Bot1", ⟨"localhost", 25565, "1.21.4"⟩⟩ none { events := [(7, .kicked "idle")] },
      .launch ⟨"Bot2", ⟨"localhost", 25565, "1.21.4"⟩⟩ none { opening := some (2, .crashed "boom") }]
    let f := Fleet.run {} ms
    let later (d : Nat) := (timed .steady).run d f
    (later 6).hasEnded 0 = false ∧ (later 7).hasEnded 0 = true ∧ (later 7).hasEnded 1 = true ∧
      f.holdUntil .steady (some 10) (some 7) 100 = ((later 7).logExit .stop, some .stop) := by
  intro ms f later
  have hlater (d : Nat) : later d = (timed .steady).after d f :=
    (steady_timed .steady []).run_eq_after d (coherent_run_empty ms)
  have hopen : (later 6).hasEnded 0 = false := by rw [hlater]; decide
  have hkicked : (later 7).hasEnded 0 = true := by rw [hlater]; decide
  have hcrashed : (later 7).hasEnded 1 = true := by rw [hlater]; decide
  obtain ⟨ends, hends, hheld, -⟩ := hold_ends_first ms .steady (some 10) (some 7)
  refine ⟨hopen, hkicked, hcrashed, hheld 7 .stop 100 (.stop rfl ?_ ?_) (by decide) (by decide)⟩
  · rintro t ht
    cases ht
    decide
  · refine fun t ht => Nat.lt_of_not_le fun hle => ?_
    have hall := (exists_latest_le_iff _ 6).mp ⟨t, ht, hle⟩
    have hfirst : ends 0 ∈ (List.range f.seats.length).map ends :=
      List.mem_map_of_mem (List.mem_range.mpr (by decide))
    have hended := (hends 0 6).mpr (hall (ends 0) hfirst)
    exact Bool.false_ne_true (hopen.symm.trans hended)

/-- A holding never takes longer than thirty years, even if its time is longer. -/
theorem hold_ends_before_long_duration :
    let f := Fleet.run {} [
      .launch ⟨"Bot1", ⟨"localhost", 25565, "1.21.4"⟩⟩ none { events := [(0, .login)] }]
    let held := f.holdUntil .steady (some 1000000000000) none 2000000000000
    held.2 = some .elapsed ∧ held.1.now = 946080000000 ∧
      946080000000 < f.now + 1000000000000 := by
  intro f held
  let holding : Holding := ⟨none, some 946080000000⟩
  let sys := Watching.timed .steady holding.instants
  let done (w : Watching) : Bool := (holding.exit? w).isSome
  have hopen : done (sys.settle (.start f)) = false := by decide
  have hwait : sys.wait? (sys.settle (.start f)) = some 946080000000 := by decide
  have hdone : done (sys.settle (sys.pass 946080000000 (sys.settle (.start f)))) = true := by decide
  have hrun : sys.runUntil done 2000000000000 (.start f) =
      (sys.settle (sys.pass 946080000000 (sys.settle (.start f))), true) := by
    rw [Timed.runUntil_of_wait hopen hwait (by decide), Timed.runUntil_of_done hdone]
  have hlasts : (some 1000000000000).map (Clock.wake f.now) = some 946080000000 := by decide
  have hheld : held = holding.release (sys.runUntil done 2000000000000 (.start f)).1 := by
    simp only [held, holdUntil, hlasts, Timed.await]
    rfl
  rw [hheld, hrun]
  decide

end Fleet

end BotFleet
