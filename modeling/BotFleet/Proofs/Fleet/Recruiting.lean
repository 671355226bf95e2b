import BotFleet.Fleet.Recruitment
import BotFleet.Proofs.Fleet.Rest
import BotFleet.Proofs.Seat.Login

/-!
# Recruiting in any order of steps

While the recruiter takes its steps, the sessions that it has started keep running.

* `Order.reserve_eq_ok_iff`: when there is room for the results;
* `Order.seat`, `Order.Serves`: the session of a bot, and a session that has been running for one;
* `Order.Settles`: the login of a bot can be settled;
* `Recruitment.Move`, `Recruitment.run`: steps of the recruiter and of the sessions, in any order;
* `Recruitment.Sound`: what holds of the recruiting at any time;
* **`Recruitment.Sound.run`**: it does, in whatever order things happen;
* `Recruitment.Complete`, **`Recruitment.Sound.complete`**: a recruiting that is done has recorded
  the login of every bot.
-/

namespace BotFleet

theorem identityOf_injective {i j : Nat} (h : identityOf i = identityOf j) : i = j := by
  have hlist : "Bot".toList ++ (Nat.repr i).toList = "Bot".toList ++ (Nat.repr j).toList := by
    have hchars := congrArg String.toList h
    simpa [identityOf, toString] using hchars
  have hdigits := List.append_cancel_left hlist
  rw [Nat.toList_repr, Nat.toList_repr] at hdigits
  rw [← Nat.ofDigitChars_ten_toDigits (n := i), hdigits, Nat.ofDigitChars_ten_toDigits]

namespace Order

/-! ## Room for the results -/

theorem reserveBytes_eq_ok_iff {memory bytes left : Nat} : reserveBytes memory bytes = .ok left ↔
    bytes ≤ maxBytes ∧ bytes ≤ memory ∧ memory - bytes = left := by
  unfold reserveBytes
  by_cases hmax : maxBytes < bytes
  · rw [if_pos hmax]
    exact ⟨nofun, fun h => absurd h.1 (Nat.not_le_of_lt hmax)⟩
  · by_cases hmemory : memory < bytes
    · rw [if_neg hmax, if_pos hmemory]
      exact ⟨nofun, fun h => absurd h.2.1 (Nat.not_le_of_lt hmemory)⟩
    · rw [if_neg hmax, if_neg hmemory, Except.ok.injEq]
      exact ⟨fun h => ⟨Nat.le_of_not_lt hmax, Nat.le_of_not_lt hmemory, h⟩, fun h => h.2.2⟩

/-- **There is room for the results** if the handles are not too many at once, and everything fits
into the memory. -/
theorem reserve_eq_ok_iff (memory count : Nat) : reserve memory count = .ok () ↔
    count * handleBytes ≤ maxBytes ∧ count * recordBytes + count * handleBytes ≤ memory := by
  have hle : count * recordBytes ≤ count * handleBytes := Nat.mul_le_mul_left count (by decide)
  have hboth : reserve memory count = .ok () ↔ ∃ left left',
      reserveBytes memory (count * recordBytes) = .ok left ∧
        reserveBytes left (count * handleBytes) = .ok left' := by
    unfold reserve
    cases reserveBytes memory (count * recordBytes) with
    | error e => exact ⟨nofun, nofun⟩
    | ok left =>
      cases hsecond : reserveBytes left (count * handleBytes) with
      | error e => simp [hsecond, bind, Except.bind]
      | ok left' => simp [hsecond, bind, Except.bind, pure, Except.pure]
  simp only [hboth, reserveBytes_eq_ok_iff]
  constructor
  · rintro ⟨left, left', ⟨-, hfirst, rfl⟩, hmax, hsecond, -⟩
    exact ⟨hmax, by omega⟩
  · rintro ⟨hmax, hmemory⟩
    exact ⟨_, _, ⟨by omega, by omega, rfl⟩, hmax, by omega, rfl⟩

/-! ## The session of a bot -/

/-- How the client of the bot with a given number behaves. -/
def script (o : Order) (i : Nat) : Script := o.scripts (identityOf i)

/-- The session of the bot with a given number, started at some instant. -/
def seat (o : Order) (start i : Nat) : Seat :=
  .fresh start ⟨identityOf i, o.target⟩ o.pace (o.script i)

/-- A session that has been running for a bot, and was not asked to stop. -/
def Serves (o : Order) (i : Nat) (seat : Seat) : Prop :=
  ∃ (start : Nat) (ms : List Seat.Move), .stop ∉ ms ∧ seat = (o.seat start i).run ms

/-- The login of a bot can be settled: in some run of its session its owner gets an answer. -/
def Settles (o : Order) (i : Nat) : Prop := ∃ seat, o.Serves i seat ∧ seat.answer.isSome = true

namespace Serves

variable {o : Order} {i : Nat} {seat : Seat}

theorem fresh (o : Order) (start i : Nat) : o.Serves i (o.seat start i) :=
  ⟨start, [], by simp, rfl⟩

theorem run (h : o.Serves i seat) {ms : List Seat.Move} (hms : .stop ∉ ms) :
    o.Serves i (seat.run ms) := by
  obtain ⟨start, before, hbefore, rfl⟩ := h
  exact ⟨start, before ++ ms, by simp [hbefore, hms], (Seat.run_append ..).symm⟩

theorem follows (h : o.Serves i seat) : ∃ seen, seat.Follows seen ∧
    seat.session.stopping = false ∧ seat.session.script = o.script i ∧
    ∃ rest, seen ++ rest = (o.script i).occurrences := by
  obtain ⟨start, ms, hms, rfl⟩ := h
  have hfresh : (o.seat start i).Follows [] := Seat.follows_fresh ..
  have hrun := hfresh.run ms
  have hscript : ((o.seat start i).run ms).session.script = o.script i :=
    Seat.script_run hfresh.coherent ms
  have hstop : ((o.seat start i).run ms).session.stopping = false := by
    rw [← Bool.not_eq_true, Seat.stopping_run hfresh.coherent]
    simp [hms, seat, Seat.fresh, Session.start]
  refine ⟨_, hrun, hstop, hscript, ?_⟩
  rw [← hscript]
  refine hrun.tracks.prefix_occurrences.resolve_right fun h => ?_
  rw [hstop] at h
  cases h.1

theorem coherent (h : o.Serves i seat) : seat.session.Coherent := by
  obtain ⟨seen, hfollows, -⟩ := h.follows
  exact hfollows.coherent

theorem identity_eq (h : o.Serves i seat) : seat.session.identity = identityOf i := by
  obtain ⟨start, ms, -, rfl⟩ := h
  have hsettings := Seat.settings_run (Serves.fresh o start i).coherent ms
  rw [Session.identity, hsettings]
  rfl

/-- **An answer is the verdict of the bot's own script.** -/
theorem verdict_eq (h : o.Serves i seat) {v : Verdict} (hv : seat.answer = some v) :
    (o.script i).verdict? = some v := by
  obtain ⟨seen, hfollows, -, -, rest, hrest⟩ := h.follows
  rw [Script.verdict?, ← hrest]
  exact firstVerdict_append_of_some (hfollows.answer_eq ▸ hv) rest

theorem answer_run (h : o.Serves i seat) {v : Verdict} (hv : seat.answer = some v)
    (ms : List Seat.Move) : (seat.run ms).answer = some v := by
  obtain ⟨seen, hfollows, -⟩ := h.follows
  exact hfollows.answer_run hv ms

end Serves

theorem Settles.exists_verdict {o : Order} {i : Nat} (h : o.Settles i) :
    ∃ v, (o.script i).verdict? = some v := by
  obtain ⟨seat, hserves, hanswer⟩ := h
  obtain ⟨v, hv⟩ := Option.isSome_iff_exists.mp hanswer
  exact ⟨v, hserves.verdict_eq hv⟩

end Order

theorem Fleet.pollLogin_eq {f : Fleet} {i : Nat} {seat : Seat} (h : f.seats[i]? = some seat) :
    f.pollLogin i = (f.move (.ask i), seat.answer) := by
  simp only [move, pollLogin, h]
  rfl

namespace Recruitment

/-! ## Steps in any order -/

/-- What may happen while a fleet is recruited: the recruiter takes its next step, or a session does
something, its client responds differently, or time passes. Nobody else can ask a session to stop. -/
inductive Move where
  | step
  | act (i : Nat) (draw : Draw) (task : Session.Task)
  | change (i : Nat) (responses : Client.Responses)
  | pass (ms : Nat)

def move (r : Recruitment) : Move → Recruitment
  | .step => r.step
  | .act i draw task => { r with fleet := r.fleet.move (.act i draw task) }
  | .change i responses => { r with fleet := r.fleet.move (.change i responses) }
  | .pass ms => { r with fleet := r.fleet.move (.pass ms) }

/-- Any number of moves in any order. -/
def run (r : Recruitment) (ms : List Move) : Recruitment := ms.foldl move r

/-- What recording a login changes. -/
structure Recorded (r : Recruitment) (i : Nat) (v : Verdict) (r' : Recruitment) : Prop where
  order : r'.order = r.order
  now : r'.fleet.now = r.fleet.now
  seats : r'.fleet.seats = r.fleet.seats
  completed : r'.completed = r.completed ++ [⟨identityOf i, v⟩]
  reporter : r'.reporter.records = r.reporter.records ++ [⟨identityOf i, v⟩]
  phase : (i < r.order.count ∧
      r'.phase = .pausing i (Clock.wake r.fleet.now r.order.stagger)) ∨
    (r.order.count ≤ i ∧ r'.phase = .done)

theorem recorded (r : Recruitment) (i : Nat) (v : Verdict) : Recorded r i v (r.recordLogin i v) := by
  unfold recordLogin
  by_cases hlt : i < r.order.count
  · simp only [hlt, if_true]
    exact ⟨rfl, rfl, rfl, rfl, rfl, .inl ⟨hlt, rfl⟩⟩
  · simp only [hlt, if_false]
    exact ⟨rfl, rfl, rfl, rfl, rfl, .inr ⟨Nat.le_of_not_lt hlt, rfl⟩⟩

theorem now_ask (f : Fleet) (i : Nat) : (f.move (.ask i)).now = f.now := by
  cases hs : f.seats[i]? <;> simp only [Fleet.move, Fleet.pollLogin, hs]

theorem recorded_step {r : Recruitment} {i : Nat} (hp : r.phase = .awaiting i) {seat : Seat}
    (hseat : r.fleet.seats[i - 1]? = some seat) {v : Verdict} (hv : seat.answer = some v) :
    Recorded { r with fleet := r.fleet.move (.ask (i - 1)) } i v r.step := by
  rw [step, hp]
  simp only [Fleet.pollLogin_eq hseat, hv]
  exact recorded ..

/-- What starting a bot changes. -/
structure Launched (r : Recruitment) (i : Nat) (r' : Recruitment) : Prop where
  order : r'.order = r.order
  now : r'.fleet.now = r.fleet.now
  seats : r'.fleet.seats = r.fleet.seats ++ [r.order.seat r.fleet.now i]
  completed : r'.completed = r.completed
  reporter : r'.reporter = r.reporter
  phase : r'.phase = .awaiting i

theorem launched {r : Recruitment} {i : Nat} (hp : r.phase = .starting i) :
    Launched r i r.step := by
  rw [step, hp]
  exact ⟨rfl, rfl, rfl, rfl, rfl, rfl⟩

/-! ## What holds at any time -/

/-- How many bots have been started and recorded. -/
def InStep (r : Recruitment) : Prop :=
  match r.phase with
  | .starting i =>
    r.fleet.seats.length + 1 = i ∧ r.completed.length + 1 = i ∧ i ≤ r.order.count
  | .awaiting i => r.fleet.seats.length = i ∧ r.completed.length + 1 = i ∧ i ≤ r.order.count
  | .pausing i _ => r.fleet.seats.length = i ∧ r.completed.length = i ∧ i < r.order.count
  | .done => r.fleet.seats.length = r.order.count ∧ r.completed.length = r.order.count

namespace InStep

variable {r : Recruitment} {i : Nat}

theorem starting (h : r.InStep) (hp : r.phase = .starting i) :
    r.fleet.seats.length + 1 = i ∧ r.completed.length + 1 = i ∧ i ≤ r.order.count := by
  unfold InStep at h
  rwa [hp] at h

theorem awaiting (h : r.InStep) (hp : r.phase = .awaiting i) :
    r.fleet.seats.length = i ∧ r.completed.length + 1 = i ∧ i ≤ r.order.count := by
  unfold InStep at h
  rwa [hp] at h

theorem pausing {due : Nat} (h : r.InStep) (hp : r.phase = .pausing i due) :
    r.fleet.seats.length = i ∧ r.completed.length = i ∧ i < r.order.count := by
  unfold InStep at h
  rwa [hp] at h

theorem done (h : r.InStep) (hp : r.phase = .done) :
    r.fleet.seats.length = r.order.count ∧ r.completed.length = r.order.count := by
  unfold InStep at h
  rwa [hp] at h

end InStep

/-- What holds of the recruiting at any time: every session serves its bot, every record is that of
its bot's own login, which is known to its handle, and the two lists of records agree. -/
structure Sound (o : Order) (reporter : Reporter) (r : Recruitment) : Prop where
  order : r.order = o
  serves : ∀ (k : Nat) (seat : Seat), r.fleet.seats[k]? = some seat → o.Serves (k + 1) seat
  record : ∀ (k : Nat) (x : LoginRecord), r.completed[k]? = some x →
    x.identity = identityOf (k + 1) ∧
      ∃ seat, r.fleet.seats[k]? = some seat ∧ seat.answer = some x.verdict
  reporter : r.reporter.records = reporter.records ++ r.completed
  inStep : r.InStep

variable {o : Order} {reporter : Reporter} {r : Recruitment}

theorem sound_start (o : Order) (reporter : Reporter) : (start o reporter).Sound o reporter where
  order := rfl
  serves := by simp [start]
  record := by simp [start]
  reporter := (List.append_nil _).symm
  inStep := by
    by_cases hcount : o.count = 0
    · simp [InStep, start, hcount]
    · simp only [InStep, start, hcount, if_false]
      simp
      omega

theorem Sound.goes (h : r.Sound o reporter) {f : Fleet} (hgoes : Fleet.Goes r.fleet f) :
    { r with fleet := f }.Sound o reporter where
  order := h.order
  serves k seat hk := by
    have hlt := (List.getElem?_eq_some_iff.mp hk).1
    rw [hgoes.length] at hlt
    obtain ⟨ms, hms, hrun⟩ := hgoes.run k _ (List.getElem?_eq_getElem hlt)
    rw [hrun] at hk
    cases hk
    exact (h.serves k _ (List.getElem?_eq_getElem hlt)).run hms
  record k x hx := by
    obtain ⟨hidentity, seat, hseat, hanswer⟩ := h.record k x hx
    obtain ⟨ms, -, hrun⟩ := hgoes.run k seat hseat
    exact ⟨hidentity, _, hrun, (h.serves k seat hseat).answer_run hanswer ms⟩
  reporter := h.reporter
  inStep := by
    have hinStep := h.inStep
    unfold InStep at hinStep ⊢
    rw [hgoes.length]
    exact hinStep

theorem getElem?_snoc {α : Type} {l : List α} {x y : α} {k : Nat} (h : (l ++ [x])[k]? = some y) :
    l[k]? = some y ∨ (k = l.length ∧ x = y) := by
  by_cases hlt : k < l.length
  · rw [List.getElem?_append_left hlt] at h
    exact .inl h
  · rw [List.getElem?_append_right (by omega), List.getElem?_singleton] at h
    split at h
    · cases h
      exact .inr ⟨by omega, rfl⟩
    · cases h

theorem Sound.launch (h : r.Sound o reporter) {i : Nat} (hp : r.phase = .starting i)
    {r' : Recruitment} (hl : Launched r i r') : r'.Sound o reporter := by
  obtain ⟨hseats, hcompleted, hle⟩ := h.inStep.starting hp
  refine ⟨hl.order.trans h.order, fun k seat hk => ?_, fun k x hx => ?_, ?_, ?_⟩
  · rw [hl.seats] at hk
    rcases getElem?_snoc hk with hk | ⟨hlast, rfl⟩
    · exact h.serves k seat hk
    · rw [hlast, hseats, h.order]
      exact .fresh o r.fleet.now i
  · rw [hl.completed] at hx
    obtain ⟨hidentity, seat, hseat, hanswer⟩ := h.record k x hx
    refine ⟨hidentity, seat, ?_, hanswer⟩
    rw [hl.seats, List.getElem?_append_left (List.getElem?_eq_some_iff.mp hseat).1]
    exact hseat
  · rw [hl.reporter, hl.completed]
    exact h.reporter
  · unfold InStep
    rw [hl.phase, hl.completed, hl.order, hl.seats, List.length_append, List.length_singleton]
    exact ⟨hseats, hcompleted, hle⟩

theorem Sound.recordLogin (h : r.Sound o reporter) {i : Nat} (hp : r.phase = .awaiting i)
    {seat : Seat} (hseat : r.fleet.seats[i - 1]? = some seat) {v : Verdict}
    (hv : seat.answer = some v) {r' : Recruitment} (hr : Recorded r i v r') :
    r'.Sound o reporter := by
  obtain ⟨hseats, hcompleted, hle⟩ := h.inStep.awaiting hp
  refine ⟨hr.order.trans h.order, fun k seat hk => ?_, fun k x hx => ?_, ?_, ?_⟩
  · rw [hr.seats] at hk
    exact h.serves k seat hk
  · rw [hr.completed] at hx
    rw [hr.seats]
    rcases getElem?_snoc hx with hx | ⟨hlast, rfl⟩
    · exact h.record k x hx
    · have hi : i - 1 = k := by omega
      refine ⟨?_, seat, hi ▸ hseat, hv⟩
      rw [hlast, hcompleted]
  · rw [hr.reporter, hr.completed, h.reporter, List.append_assoc]
  · unfold InStep
    rw [hr.completed, hr.seats, hr.order, List.length_append, List.length_singleton, hcompleted]
    rcases hr.phase with ⟨hlt, hphase⟩ | ⟨hge, hphase⟩ <;> rw [hphase]
    · exact ⟨hseats, rfl, hlt⟩
    · exact ⟨by omega, by omega⟩

/-- **A step of the recruiter keeps the recruiting sound.** -/
theorem Sound.step (h : r.Sound o reporter) : r.step.Sound o reporter := by
  cases hp : r.phase with
  | starting i => exact h.launch hp (launched hp)
  | awaiting i =>
    have hin := h.inStep.awaiting hp
    obtain ⟨seat, hseat⟩ : ∃ seat, r.fleet.seats[i - 1]? = some seat :=
      ⟨_, List.getElem?_eq_getElem (by omega)⟩
    have hgoes := r.fleet.goes_move (m := .ask (i - 1)) rfl (by simp [Fleet.Move.target?])
    obtain ⟨ms, -, hrun⟩ := hgoes.run (i - 1) seat hseat
    cases hv : seat.answer with
    | none =>
      rw [Recruitment.step, hp]
      simp only [Fleet.pollLogin_eq hseat, hv]
      exact h
    | some v =>
      have hanswer := (h.serves (i - 1) seat hseat).answer_run hv ms
      exact (h.goes hgoes).recordLogin hp hrun hanswer (recorded_step hp hseat hv)
  | pausing i due =>
    have hin := h.inStep.pausing hp
    rw [Recruitment.step, hp]
    by_cases hdue : due ≤ r.fleet.now
    · simp only [hdue, if_true]
      refine ⟨h.order, h.serves, h.record, h.reporter, ?_⟩
      exact ⟨congrArg (· + 1) hin.1, congrArg (· + 1) hin.2.1, hin.2.2⟩
    · simp only [hdue, if_false]
      exact h
  | done =>
    rw [Recruitment.step, hp]
    exact h

/-- **Whatever happens keeps the recruiting sound.** -/
theorem Sound.run (h : r.Sound o reporter) (ms : List Move) : (r.run ms).Sound o reporter := by
  induction ms generalizing r with
  | nil => exact h
  | cons m ms ih =>
    refine ih ?_
    cases m with
    | step => exact h.step
    | _ => exact h.goes (r.fleet.goes_move rfl (by simp [Fleet.Move.target?]))

/-! ## The end of the recruiting -/

/-- A recruiting that is done has recorded the login of as many bots as were ordered. Each bot has its
own name, and its record tells what its handle tells, which only its own script decides. What the
reporter held before comes first in it. -/
structure Complete (o : Order) (reporter : Reporter) (r : Recruitment) : Prop where
  order : r.order = o
  completed : r.completed.length = o.count
  handles : r.fleet.seats.length = o.count
  record : ∀ k, k < o.count → ∃ seat v, r.fleet.seats[k]? = some seat ∧
    seat.session.identity = identityOf (k + 1) ∧ o.Serves (k + 1) seat ∧ seat.answer = some v ∧
    (o.script (k + 1)).verdict? = some v ∧ r.completed[k]? = some ⟨identityOf (k + 1), v⟩
  distinct : (r.completed.map LoginRecord.identity).Nodup
  reporter : r.reporter.records = reporter.records ++ r.completed

theorem Sound.distinct (h : r.Sound o reporter) :
    (r.completed.map LoginRecord.identity).Nodup := by
  have hname (i : Nat) (hi : i < r.completed.length) :
      r.completed[i].identity = identityOf (i + 1) :=
    (h.record i _ (List.getElem?_eq_getElem hi)).1
  rw [List.nodup_iff_pairwise_ne, List.pairwise_map, List.pairwise_iff_getElem]
  intro i j hi hj hlt heq
  rw [hname i hi, hname j hj] at heq
  have hij := identityOf_injective heq
  omega

theorem Sound.complete (h : r.Sound o reporter) (hdone : r.isDone = true) :
    r.Complete o reporter := by
  have hphase : r.phase = .done := by simpa [isDone] using hdone
  obtain ⟨hseats, hcompleted⟩ := h.inStep.done hphase
  rw [h.order] at hseats hcompleted
  refine ⟨h.order, hcompleted, hseats, fun k hk => ?_, h.distinct, h.reporter⟩
  have hx := List.getElem?_eq_getElem (l := r.completed) (by omega : k < r.completed.length)
  obtain ⟨hidentity, seat, hseat, hanswer⟩ := h.record k _ hx
  have hserves := h.serves k seat hseat
  refine ⟨seat, _, hseat, hserves.identity_eq, hserves, hanswer, hserves.verdict_eq hanswer, ?_⟩
  rw [hx, ← hidentity]

end Recruitment

end BotFleet
