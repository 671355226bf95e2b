import BotFleet.Proofs.Seat.Login

/-!
# The calls for a login

The owner of a session asks for its login by calls, one at a time. A call is polled until it
completes, and may be dropped at any time before that.

* `LoginCall`, `LoginCall.poll`: how far a call has come, and what polling it does;
* `Caller`, `Caller.Move`, `Caller.run`: an owner with its calls, in any order of what may happen;
* `Settlement.conclusion`, `Caller.fate`: the first settlement of a login during a run;
* `Caller.Sound`, **`Caller.Sound.move`**: what holds of an owner at any time;
* **`Caller.calls_agree`**: every call that completes is told the first settlement.
-/

namespace BotFleet

/-! ## Calls -/

/-- Ask the receiver; what it hands over is remembered at once. -/
def LoginHandle.await (h : LoginHandle) (s : Settlement) :
    LoginHandle × Settlement × Option Verdict :=
  match s.receive with
  | (s, .verdict v) => (remember v, s, some v)
  | (s, .empty) => (h, s, none)
  | (s, _) => (remember endedEarly, s, some endedEarly)

/-- How far a call has come: it has not been polled, or it waits for the receiver. -/
inductive LoginCall where
  | begun
  | waiting
deriving DecidableEq

/-- Poll a call. It looks at what the handle knows when it is polled for the first time; after that
it waits for the receiver only. -/
def LoginCall.poll (call : LoginCall) (h : LoginHandle) (s : Settlement) :
    LoginHandle × Settlement × Option Verdict :=
  match call with
  | begun => h.poll s
  | waiting => h.await s

/-- A session and its owner, who has one call at most. -/
structure Caller where
  seat : Seat
  call : Option LoginCall := none
  /-- What the calls that have completed were told, the oldest first. -/
  results : List Verdict := []

namespace Caller

/-- The owner of a session that has not done anything. -/
def fresh (start : Nat) (settings : SessionSettings) (pace : Option Pace) (script : Script) :
    Caller :=
  { seat := .fresh start settings pace script }

/-- What may happen: anything that is no matter of the owner, or the owner begins a call, polls it,
or drops it. -/
inductive Move where
  | other (m : Seat.Move) (h : m ≠ .ask)
  | call
  | poll
  | drop

/-- Take over what polling has come to. -/
def polled (c : Caller) (result : LoginHandle × Settlement × Option Verdict) : Caller where
  seat := { c.seat with
    handle := result.1
    session := { c.seat.session with settlement := result.2.1 } }
  call := if result.2.2.isSome then none else some .waiting
  results := c.results ++ result.2.2.toList

/-- No call can begin while another one is open, and only an open call can be polled. -/
def move (c : Caller) : Move → Caller
  | .other m _ => { c with seat := c.seat.move m }
  | .call => { c with call := c.call.or (some .begun) }
  | .poll =>
    match c.call with
    | some call => c.polled (call.poll c.seat.handle c.seat.session.settlement)
    | none => c
  | .drop => { c with call := none }

/-- Any number of moves in any order. -/
def run (c : Caller) (ms : List Move) : Caller := ms.foldl move c

end Caller

/-! ## The first settlement -/

/-- What the owner of a settlement that has just been settled or given up can expect: the verdict
that was given, or that of a session which ended early. -/
def Settlement.conclusion : Settlement → Option Verdict
  | ⟨true, .holding v, _⟩ => some v
  | ⟨false, .spent, _⟩ => some LoginHandle.endedEarly
  | _ => none

namespace Caller

/-- How the login is concluded in a move, unless it was settled before. -/
def concludes (c : Caller) : Move → Option Verdict
  | .other m _ =>
    if c.seat.session.settlement.settled then none
    else (c.seat.move m).session.settlement.conclusion
  | _ => none

/-- The first settlement of the login during a run. -/
def fate : Caller → List Move → Option Verdict
  | _, [] => none
  | c, m :: ms => (c.concludes m).or ((c.move m).fate ms)

end Caller

theorem Delivery.conclusion_eq {h : LoginHandle} {s : Settlement} {v? : Option Verdict}
    (hd : Delivery h s v?) (hh : h.outcome = none) : s.conclusion = v? := by
  cases hd with
  | waiting | given | lost => rfl
  | taken | lostTaken => cases hh

theorem Delivery.receiving {h : LoginHandle} {s : Settlement} {v? : Option Verdict}
    (hd : Delivery h s v?) (hh : h.outcome = none) : h.receiving = true := by
  cases hd with
  | waiting | given | lost => rfl
  | taken | lostTaken => cases hh

theorem Delivery.outcome_of_none {h : LoginHandle} {s : Settlement} (hd : Delivery h s none) :
    h.outcome = none := by
  cases hd
  rfl

theorem LoginHandle.poll_eq_await {h : LoginHandle} (hout : h.outcome = none)
    (hrec : h.receiving = true) (s : Settlement) : h.poll s = h.await s := by
  cases hr : s.receive with
  | mk t a => cases a <;> simp [poll, await, hout, hrec, hr]

theorem Seat.handle_move (seat : Seat) {m : Move} (hm : m ≠ .ask) :
    (seat.move m).handle = seat.handle := by
  cases m with
  | ask => exact absurd rfl hm
  | _ => rfl

theorem Seat.ask_waits {seat : Seat} (hd : Delivery seat.handle seat.session.settlement none) :
    seat.move .ask = seat := by
  obtain ⟨start, session, handle, journal⟩ := seat
  generalize hs : session.settlement = s at hd
  cases hd
  cases session
  cases hs
  rfl

namespace Caller

/-! ## What holds at any time -/

/-- An owner whose session has seen some occurrences: a call that waits has left nothing behind, and
what the calls were told is the verdict of the first decisive occurrence. -/
structure Sound (c : Caller) (seen : List Occurrence) : Prop where
  follows : c.seat.Follows seen
  waiting : c.call = some .waiting → c.seat.handle.outcome = none
  results : ∀ v ∈ c.results, firstVerdict seen = some v

theorem sound_fresh (start : Nat) (settings : SessionSettings) (pace : Option Pace)
    (script : Script) : (fresh start settings pace script).Sound [] :=
  ⟨Seat.follows_fresh .., nofun, nofun⟩

variable {c : Caller} {seen : List Occurrence}

/-- **Polling an open call asks for the login**, however far the call has come. -/
theorem Sound.move_poll (h : c.Sound seen) (hopen : c.call.isSome = true) :
    c.move .poll = { seat := c.seat.move .ask
                     call := if c.seat.answer.isSome then none else some .waiting
                     results := c.results ++ c.seat.answer.toList } := by
  obtain ⟨call, hcall⟩ := Option.isSome_iff_exists.mp hopen
  have hpoll : call.poll c.seat.handle c.seat.session.settlement =
      c.seat.handle.poll c.seat.session.settlement := by
    cases call with
    | begun => rfl
    | waiting =>
      have hout := h.waiting hcall
      exact (LoginHandle.poll_eq_await hout (h.follows.delivery.receiving hout) _).symm
  rw [move, hcall]
  simp only [hpoll]
  rfl

theorem Sound.other (h : c.Sound seen) {m : Seat.Move} (hm : m ≠ .ask) :
    (c.move (.other m hm)).Sound (seen ++ c.seat.sees m) := by
  refine ⟨h.follows.move m, fun hw => ?_, fun v hv => ?_⟩
  · rw [move, Seat.handle_move c.seat hm]
    exact h.waiting hw
  · exact firstVerdict_append_of_some (h.results v hv) _

theorem Sound.poll (h : c.Sound seen) (hopen : c.call.isSome = true) :
    (c.move .poll).Sound seen := by
  have hask : (c.seat.move .ask).Follows seen := h.follows.other_move nofun
  have hanswer := h.follows.answer_eq
  rw [h.move_poll hopen]
  refine ⟨hask, fun hw => ?_, fun v hv => ?_⟩
  · cases ha : c.seat.answer with
    | some v => rw [ha] at hw; cases hw
    | none =>
      have hdelivery := hask.delivery
      rw [← hanswer, ha] at hdelivery
      exact hdelivery.outcome_of_none
  · rcases List.mem_append.mp hv with hv | hv
    · exact h.results v hv
    · rw [← hanswer]
      exact Option.mem_toList.mp hv

/-- How the login is concluded is the verdict of what the session sees, if it is the first. -/
theorem Sound.firstVerdict_other (h : c.Sound seen) {m : Seat.Move} (hm : m ≠ .ask) :
    firstVerdict (seen ++ c.seat.sees m) =
      (firstVerdict seen).or (c.concludes (.other m hm)) := by
  have hdelivery := h.follows.delivery
  cases hv : firstVerdict seen with
  | some v => exact firstVerdict_append_of_some hv _
  | none =>
    rw [hv] at hdelivery
    have hlater := (h.follows.move m).delivery
    rw [concludes, hdelivery.settled_of_none, if_neg Bool.false_ne_true, Option.none_or]
    refine (hlater.conclusion_eq ?_).symm
    rw [Seat.handle_move c.seat hm]
    exact hdelivery.outcome_of_none

/-- **Whatever happens keeps an owner sound**, and the verdict of the first decisive occurrence is
the first settlement. -/
theorem Sound.move (h : c.Sound seen) (m : Move) : ∃ more, (c.move m).Sound (seen ++ more) ∧
    firstVerdict (seen ++ more) = (firstVerdict seen).or (c.concludes m) := by
  have hsame (hm : (c.move m).Sound seen) (hnone : c.concludes m = none) :
      ∃ more, (c.move m).Sound (seen ++ more) ∧
        firstVerdict (seen ++ more) = (firstVerdict seen).or (c.concludes m) := by
    refine ⟨[], by rwa [List.append_nil], ?_⟩
    rw [hnone, Option.or_none, List.append_nil]
  cases m with
  | other m hm => exact ⟨_, h.other hm, h.firstVerdict_other hm⟩
  | call =>
    refine hsame ⟨h.follows, fun hw => h.waiting ?_, h.results⟩ rfl
    cases hcall : c.call <;> rw [Caller.move, hcall] at hw
    · cases hw
    · exact hw
  | poll =>
    refine hsame ?_ rfl
    cases hcall : c.call with
    | none => rw [Caller.move, hcall]; exact h
    | some call => exact h.poll (by rw [hcall]; rfl)
  | drop => exact hsame ⟨h.follows, nofun, h.results⟩ rfl

theorem Sound.run (h : c.Sound seen) (ms : List Move) : ∃ more, (c.run ms).Sound (seen ++ more) ∧
    firstVerdict (seen ++ more) = (firstVerdict seen).or (c.fate ms) := by
  induction ms generalizing c seen with
  | nil =>
    refine ⟨[], by rwa [List.append_nil], ?_⟩
    rw [fate, Option.or_none, List.append_nil]
  | cons m ms ih =>
    obtain ⟨more, hmove, hfirst⟩ := h.move m
    obtain ⟨later, hrun, hlater⟩ := ih hmove
    refine ⟨more ++ later, ?_, ?_⟩
    · rw [← List.append_assoc]
      exact hrun
    · rw [← List.append_assoc, hlater, hfirst, fate, Option.or_assoc]

/-! ## The law of the calls -/

theorem run_append (c : Caller) (ms ms' : List Move) : c.run (ms ++ ms') = (c.run ms).run ms' :=
  List.foldl_append

/-- A call completes as soon as it is polled after the first settlement. -/
theorem Sound.results_poll (h : c.Sound seen) {v : Verdict} (hv : firstVerdict seen = some v)
    (hopen : c.call.isSome = true) :
    (c.move .poll).call = none ∧ (c.move .poll).results = c.results ++ [v] := by
  rw [h.move_poll hopen, h.follows.answer_eq, hv]
  exact ⟨rfl, rfl⟩

/-- Before that it waits, and nothing else changes. -/
theorem Sound.poll_waits (h : c.Sound seen) (hv : firstVerdict seen = none)
    (hopen : c.call.isSome = true) : c.move .poll = { c with call := some .waiting } := by
  rw [h.move_poll hopen, Seat.ask_waits (hv ▸ h.follows.delivery), h.follows.answer_eq, hv]
  simp

/-- **All calls agree.** Whatever happens to a session and in whatever order its owner begins, polls
and drops calls for its login:

* a call that completes is told the first settlement;
* no call finds that the login was taken and forgotten: a handle without an outcome has its
  receiver;
* before the first settlement an open call waits, and polling it changes nothing else;
* after it, whatever happens then, every call that completes is told that settlement, an open call
  completes when it is polled, and where a call is dropped the next one completes in its place. -/
theorem calls_agree (start : Nat) (settings : SessionSettings) (pace : Option Pace)
    (script : Script) (ms : List Move) :
    let owner := fresh start settings pace script
    let c := owner.run ms
    (∀ v ∈ c.results, owner.fate ms = some v) ∧
      (c.seat.handle.outcome = none → c.seat.handle.receiving = true) ∧
      (owner.fate ms = none → c.call.isSome = true →
        c.move .poll = { c with call := some .waiting }) ∧
      (∀ v, owner.fate ms = some v → ∀ ms', let later := owner.run (ms ++ ms')
        (∀ v' ∈ later.results, v' = v) ∧
          (later.call.isSome = true →
            (later.move .poll).call = none ∧ (later.move .poll).results = later.results ++ [v]) ∧
          (later.run [.drop, .call, .poll]).results = later.results ++ [v]) := by
  intro owner c
  obtain ⟨seen, hc, hseen⟩ := (sound_fresh start settings pace script).run ms
  rw [List.nil_append] at hc hseen
  have hfate : firstVerdict seen = owner.fate ms := hseen
  refine ⟨fun v hv => hfate ▸ hc.results v hv, hc.follows.delivery.receiving,
    fun hnone => hc.poll_waits (hfate.trans hnone), fun v hv ms' => ?_⟩
  obtain ⟨more, hlater, -⟩ := hc.run ms'
  have hfirst : firstVerdict (seen ++ more) = some v :=
    firstVerdict_append_of_some (hfate.trans hv) more
  rw [run_append]
  refine ⟨fun v' hv' => ?_, hlater.results_poll hfirst, ?_⟩
  · exact Option.some.inj ((hlater.results v' hv').symm.trans hfirst)
  · -- a new call in the place of the one that was dropped
    have hdrop : ((c.run ms').run [.drop, .call]).Sound (seen ++ more) :=
      ⟨hlater.follows, nofun, hlater.results⟩
    exact (hdrop.results_poll hfirst rfl).2

/-- A call that is dropped while it waits for a login, and the next one, which is told it. -/
theorem calls_agree_after_drop :
    let owner := fresh 0 ⟨"Bot1", ⟨"localhost", 25565, "1.21.4"⟩⟩ none { events := [(0, .login)] }
    let work : Move := .other (.act .steady .work) nofun
    let report : Move := .other (.act .steady .report) nofun
    let ms : List Move := [.call, .poll, .drop, work, work, report, work]
    ((owner.run [.call]).move .poll).call = some .waiting ∧
      owner.fate ms = some .success ∧ (owner.run ms).results = [] ∧
      ((owner.run (ms ++ [.call])).move .poll).call = none ∧
      ((owner.run (ms ++ [.call])).move .poll).results = [.success] := by
  intro owner work report ms
  have hfate : owner.fate ms = some .success := by decide
  have hresults : (owner.run ms).results = [] := by decide
  obtain ⟨-, -, hwaits, -⟩ := calls_agree 0 _ none _ [.call]
  obtain ⟨-, -, -, hlater⟩ := calls_agree 0 _ none _ ms
  obtain ⟨-, hcompletes, -⟩ := hlater .success hfate [.call]
  obtain ⟨hnone, htold⟩ := hcompletes (by decide)
  exact ⟨congrArg call (hwaits (by decide) (by decide)), hfate, hresults, hnone,
    htold.trans (congrArg (· ++ [_]) hresults)⟩

end Caller

end BotFleet
