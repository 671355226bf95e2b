import BotFleet.Proofs.Fleet.Run
import BotFleet.Proofs.Seat.Count
import BotFleet.Proofs.Tally.Effects

/-!
# The balance of a fleet

* `Fleet.effects`, `Fleet.times`: what the sessions of a fleet have done, and how often;
* `Fleet.Tallied`: the shared tally shows these numbers, as far as 64 bits go;
* `Fleet.Balanced`: the numbers agree with how the sessions stand;
* **`Fleet.tallied_run`**, **`Fleet.balanced_of_counted`**: both hold after every run;
* **`Fleet.tally_balanced`**: the law of the shared tally.
-/

namespace BotFleet

namespace Fleet

/-- What the sessions of a fleet have done. -/
def effects (f : Fleet) : List Effect := f.seats.flatMap Seat.effects

/-- How often the sessions of a fleet have had an effect. -/
def times (f : Fleet) (e : Effect) : Nat := f.effects.count e

/-- What the sessions do in a move. -/
def does (f : Fleet) (m : Move) : List Effect :=
  match m.target? with
  | some (i, m') => (f.seats[i]?.map (·.does m')).getD []
  | none => []

theorem tally_move (f : Fleet) (m : Move) : (f.move m).tally = f.tally.applyAll (f.does m) := by
  cases m with
  | act i draw task =>
    cases hs : f.seats[i]? <;> simp only [move, step, does, Move.target?, hs] <;> rfl
  | ask i => cases hs : f.seats[i]? <;> simp only [move, pollLogin, does, Move.target?, hs] <;> rfl
  | stop i | change i r => cases hs : f.seats[i]? <;> simp only [does, Move.target?, hs] <;> rfl
  | _ => rfl

theorem count_modify {seats : List Seat} {i : Nat} {seat : Seat} (h : seats[i]? = some seat)
    (g : Seat → Seat) (e : Effect) :
    ((seats.modify i g).flatMap Seat.effects).count e + seat.times e =
      (seats.flatMap Seat.effects).count e + (g seat).times e := by
  induction seats generalizing i with
  | nil => cases h
  | cons x seats ih =>
    cases i with
    | zero =>
      cases h
      simp only [List.modify_zero_cons, List.flatMap_cons, List.count_append, Seat.times]
      omega
    | succ i =>
      have := ih (i := i) h
      simp only [List.modify_succ_cons, List.flatMap_cons, List.count_append]
      omega

theorem times_move (f : Fleet) (m : Move) (e : Effect) :
    (f.move m).times e = f.times e + (f.does m).count e := by
  cases htarget : m.target? with
  | some x =>
    obtain ⟨i, m'⟩ := x
    simp only [times, effects, seats_target f htarget, does, htarget]
    cases hs : f.seats[i]? with
    | none => rw [List.modify_eq_self (List.getElem?_eq_none_iff.mp hs)]; rfl
    | some seat =>
      have hcount := count_modify hs (·.move m') e
      rw [seat.times_move] at hcount
      rw [Option.map_some, Option.getD_some]
      omega
  | none =>
    simp only [does, htarget, List.count_nil, Nat.add_zero]
    cases m with
    | launch settings pace script => simp [times, effects, move, launch, Seat.effects]
    | pass ms => simp only [times, effects, move, pass, List.flatMap_map]; rfl
    | log level message => rfl
    | _ => cases htarget

theorem times_le_run (f : Fleet) (ms : List Move) (e : Effect) : f.times e ≤ (f.run ms).times e := by
  refine run_induction (P := fun f' => f.times e ≤ f'.times e) (Nat.le_refl _) (fun f' m h => ?_) ms
  rw [times_move]
  exact Nat.le_trans h (Nat.le_add_right ..)

/-! ## The shared tally -/

/-- The shared tally shows what the sessions have done, as far as 64 bits go. -/
structure Tallied (f : Fleet) : Prop where
  counter : ∀ c, f.tally.get c = UInt64.ofNat (f.times (.count c))
  active : f.tally.active + UInt64.ofNat (f.times .leave) = UInt64.ofNat (f.times .enter)

theorem Tallied.move {f : Fleet} (h : f.Tallied) (m : Move) : (f.move m).Tallied where
  counter c := by
    rw [tally_move, Tally.get_applyAll, times_move, h.counter, UInt64.ofNat_add]
  active := by
    rw [tally_move, times_move, times_move, UInt64.ofNat_add, UInt64.ofNat_add, ← h.active,
      UInt64.add_comm (UInt64.ofNat (f.times .leave)), ← UInt64.add_assoc, Tally.active_applyAll,
      UInt64.add_assoc, UInt64.add_comm (UInt64.ofNat _), ← UInt64.add_assoc]

/-- **The shared tally always shows what the sessions have done.** -/
theorem tallied_run (ms : List Move) : (run {} ms).Tallied :=
  run_induction ⟨fun c => by cases c <;> rfl, rfl⟩ (fun _ m h => h.move m) ms

/-! ## The balance -/

theorem counted_run (ms : List Move) : ∀ seat ∈ (run {} ms).seats, seat.Counted :=
  forall_seats_run Seat.counted_fresh (fun _ m h => h.move m) (by simp) ms

/-- What the sessions have counted agrees with how they stand. -/
structure Balanced (f : Fleet) : Prop where
  started : f.times (.count .started) = f.seats.countP (·.session.isOpen) +
    (f.times (.count .logins) + f.times (.count .failures))
  logins : f.times (.count .logins) =
    f.seats.countP (·.session.isPresent) + f.times (.count .endedAfterLogin)
  active : f.times .enter = f.seats.countP (·.session.isWorking) + f.times .leave
  share : f.times (.count .started) ≤ f.seats.length

theorem balanced_nil {f : Fleet} (h : f.seats = []) : f.Balanced := by
  constructor <;> simp [times, effects, h]

theorem Balanced.cons {f f' : Fleet} {seat : Seat} (hf : f.seats = seat :: f'.seats)
    (hseat : seat.Counted) (h : f'.Balanced) : f.Balanced := by
  have htimes (e : Effect) : f.times e = seat.times e + f'.times e := by
    rw [times, effects, hf, List.flatMap_cons, List.count_append]
    rfl
  have hcount (p : Seat → Bool) : f.seats.countP p = f'.seats.countP p + (p seat).toNat := by
    rw [hf, List.countP_cons]
    cases p seat <;> rfl
  have hstarted := hseat.started
  have hopen := hseat.started_eq
  have hpresent := hseat.present
  have hentered := hseat.entered_eq
  have hle := seat.session.isStarted.toNat_le
  have hshare := h.share
  refine ⟨?_, ?_, ?_, ?_⟩
  · rw [htimes, htimes, htimes, hcount, h.started]
    omega
  · rw [htimes, htimes, hcount, h.logins]
    omega
  · rw [htimes, htimes, hcount, h.active]
    omega
  · rw [htimes, hf, List.length_cons]
    omega

/-- **What the sessions have counted always agrees with how they stand.** -/
theorem balanced_of_counted {f : Fleet} (h : ∀ seat ∈ f.seats, seat.Counted) : f.Balanced := by
  obtain ⟨now, seats, tally, journal⟩ := f
  induction seats with
  | nil => exact balanced_nil rfl
  | cons seat seats ih =>
    obtain ⟨hseat, hseats⟩ := List.forall_mem_cons.mp h
    exact (ih hseats).cons rfl hseat

theorem Tallied.toNat {f : Fleet} (h : f.Tallied) {c : Counter}
    (hc : f.times (.count c) < UInt64.size) : (f.tally.get c).toNat = f.times (.count c) := by
  rw [h.counter]
  exact UInt64.toNat_ofNat_of_lt' hc

theorem Tallied.active_eq {f : Fleet} (h : f.Tallied) (hb : f.Balanced) :
    f.tally.active = UInt64.ofNat (f.seats.countP (·.session.isWorking)) := by
  have hactive := h.active
  rw [hb.active, UInt64.ofNat_add] at hactive
  exact (UInt64.add_left_inj _).mp hactive

/-- The tally balances without wrapping around as long as 64 bits can count the sessions. -/
theorem Tallied.exact {f : Fleet} (h : f.Tallied) (hb : f.Balanced)
    (hfew : f.seats.length < UInt64.size) :
    f.tally.started.toNat = f.seats.countP (·.session.isOpen) +
        (f.tally.logins.toNat + f.tally.failures.toNat) ∧
      f.tally.logins.toNat = f.seats.countP (·.session.isPresent) +
        f.tally.endedAfterLogin.toNat ∧
      f.tally.active.toNat = f.seats.countP (·.session.isWorking) := by
  have hshare := Nat.lt_of_le_of_lt hb.share hfew
  have hsum := hb.started
  have hpresent := hb.logins
  have hstarted : f.tally.started.toNat = _ := h.toNat hshare
  have hlogins : f.tally.logins.toNat = _ := h.toNat (c := .logins) (by omega)
  have hfailures : f.tally.failures.toNat = _ := h.toNat (c := .failures) (by omega)
  have hended : f.tally.endedAfterLogin.toNat = _ := h.toNat (c := .endedAfterLogin) (by omega)
  refine ⟨?_, ?_, ?_⟩
  · rw [hstarted, hlogins, hfailures, hsum]
  · rw [hlogins, hended, hpresent]
  · rw [h.active_eq hb]
    exact UInt64.toNat_ofNat_of_lt' (Nat.lt_of_le_of_lt List.countP_le_length hfew)

theorem Tallied.mono {f f' : Fleet} (h : f.Tallied) (h' : f'.Tallied) {c : Counter}
    (hle : f.times (.count c) ≤ f'.times (.count c))
    (hfew : f'.times (.count c) < UInt64.size) : f.tally.get c ≤ f'.tally.get c := by
  rw [h.counter, h'.counter, UInt64.ofNat_le_iff_le (Nat.lt_of_le_of_lt hle hfew) hfew]
  exact hle

/-- **The shared tally balances.** However many sessions share it, and in whatever order they run:

* the started sessions are those whose login is open, those that logged in and those that failed;
* those that logged in are still logged in or have ended;
* the active sessions are those that have started to run and not finished, and the number never
  passes below zero;
* no session counts two outcomes of its login, or an end after login without a login;
* no counter ever decreases.

The counters have 64 bits; their equations hold with the wrapping of 64 bits, and without it as
long as there are fewer sessions. -/
theorem tally_balanced (ms : List Move) :
    let f := run {} ms
    (f.tally.started = UInt64.ofNat (f.seats.countP (·.session.isOpen)) +
        (f.tally.logins + f.tally.failures) ∧
      f.tally.logins = UInt64.ofNat (f.seats.countP (·.session.isPresent)) +
        f.tally.endedAfterLogin ∧
      f.tally.active = UInt64.ofNat (f.seats.countP (·.session.isWorking))) ∧
      (f.seats.length < UInt64.size →
        f.tally.started.toNat = f.seats.countP (·.session.isOpen) +
          (f.tally.logins.toNat + f.tally.failures.toNat) ∧
        f.tally.logins.toNat = f.seats.countP (·.session.isPresent) +
          f.tally.endedAfterLogin.toNat ∧
        f.tally.active.toNat = f.seats.countP (·.session.isWorking)) ∧
      f.times .enter = f.seats.countP (·.session.isWorking) + f.times .leave ∧
      (∀ seat ∈ f.seats, seat.times (.count .logins) + seat.times (.count .failures) ≤ 1 ∧
        seat.times (.count .endedAfterLogin) ≤ seat.times (.count .logins)) ∧
      ∀ c, f.tally.get c = UInt64.ofNat (f.times (.count c)) ∧
        ∀ ms', f.times (.count c) ≤ (f.run ms').times (.count c) ∧
          ((f.run ms').times (.count c) < UInt64.size →
            f.tally.get c ≤ (f.run ms').tally.get c) := by
  intro f
  have ht : f.Tallied := tallied_run ms
  have hcounted : ∀ seat ∈ f.seats, seat.Counted := counted_run ms
  have hb : f.Balanced := balanced_of_counted hcounted
  have ht' (ms' : List Move) : (f.run ms').Tallied := by
    rw [← run_append]
    exact tallied_run (ms ++ ms')
  have hstarted : f.tally.started = _ := ht.counter .started
  have hlogins : f.tally.logins = _ := ht.counter .logins
  have hfailures : f.tally.failures = _ := ht.counter .failures
  have hended : f.tally.endedAfterLogin = _ := ht.counter .endedAfterLogin
  refine ⟨⟨?_, ?_, ht.active_eq hb⟩, ht.exact hb, hb.active, fun seat hseat =>
    (hcounted seat hseat).once, fun c => ⟨ht.counter c, fun ms' => ?_⟩⟩
  · rw [hstarted, hb.started, UInt64.ofNat_add, UInt64.ofNat_add, ← hlogins, ← hfailures]
  · rw [hlogins, hb.logins, UInt64.ofNat_add, ← hended]
  · have hle := times_le_run f ms' (.count c)
    exact ⟨hle, ht.mono (ht' ms') hle⟩

end Fleet

end BotFleet
