import BotFleet.Proofs.Fleet.Completion
import BotFleet.Proofs.Seat.Twins

/-!
# Sessions of a fleet are isolated

What a bot does and what becomes of it depends on its own script, whatever the other bots do.

* `Recruitment.Timely`: a recruiting whose sessions run in time;
* `Recruitment.stages`: the changes of stage that others see of one session, and when;
* `Recruitment.SeatMoved`, **`Recruitment.seat_move`**: what one move is for one session;
* **`Recruitment.played_run`**: every session plays its own script;
* `Recruitment.Reports`: the record of a bot;
* **`Recruitment.isolated`**: the law of the isolation.
-/

namespace BotFleet

namespace Recruitment

variable {o o' : Order} {reporter reporter' : Reporter} {r : Recruitment} {k : Nat}

/-! ## What is seen of one session -/

/-- Time passes only when no session can do anything, and not beyond what is due in one of them. The
recruiter may take as long as it likes. -/
def Allows (r : Recruitment) : Move → Prop
  | .pass d => ∀ seat ∈ r.fleet.seats, seat.session.MayPass d
  | _ => True

/-- A recruiting whose sessions run in time. -/
def Timely : Recruitment → List Move → Prop
  | _, [] => True
  | r, m :: ms => r.Allows m ∧ Timely (r.move m) ms

instance (r : Recruitment) (m : Move) : Decidable (r.Allows m) := by
  unfold Allows
  split <;> infer_instance

instance decidableTimely : ∀ (r : Recruitment) (ms : List Move), Decidable (r.Timely ms)
  | _, [] => .isTrue trivial
  | r, m :: ms => @instDecidableAnd _ _ _ (decidableTimely (r.move m) ms)

/-- The change of stage that others see of a session, with the instant of its own clock. -/
def shown : Option Seat → Option Seat → List (Nat × Stage)
  | some seat, some seat' =>
    Stage.change seat.session.clock seat.session.published seat'.session.published
  | _, _ => []

/-- The changes of stage that others see of one session during a recruiting. -/
def stages : Recruitment → Nat → List Move → List (Nat × Stage)
  | _, _, [] => []
  | r, k, m :: ms =>
    shown r.fleet.seats[k]? (r.move m).fleet.seats[k]? ++ stages (r.move m) k ms

/-! ## What happens to one session -/

/-- What a move of the recruiting is for one session. None stops it or changes how its client
responds, and time passes for it when it passes for the fleet. -/
inductive SeatMoved (o : Order) (k now now' : Nat) : Option Seat → Option Seat → Prop where
  | absent : SeatMoved o k now now' none none
  | joins : now' = now → SeatMoved o k now now' none (some (o.seat now (k + 1)))
  | stays (seat : Seat) : now' = now → SeatMoved o k now now' (some seat) (some seat)
  | acts (seat : Seat) (m : Seat.Move) : now' = now → m ≠ .stop →
      (∀ responses, m ≠ .change responses) → (∀ d, m ≠ .pass d) →
      SeatMoved o k now now' (some seat) (some (seat.move m))
  | passes (seat : Seat) (d : Nat) : now' = now + d → seat.session.MayPass d →
      SeatMoved o k now now' (some seat) (some (seat.move (.pass d)))

theorem seatMoved_refl (o : Order) (k now : Nat) (seat? : Option Seat) :
    SeatMoved o k now now seat? seat? := by
  cases seat? with
  | none => exact .absent
  | some seat => exact .stays seat rfl

theorem seatMoved_target (o : Order) (k : Nat) (f : Fleet) (m : Fleet.Move) {i : Nat}
    {m' : Seat.Move} (hm : m.target? = some (i, m')) (hnow : (f.move m).now = f.now)
    (hstop : m' ≠ .stop) (hchange : ∀ responses, m' = .change responses → i ≠ k) :
    SeatMoved o k f.now (f.move m).now f.seats[k]? (f.move m).seats[k]? := by
  have hpass (d : Nat) : m' ≠ .pass d := by
    rintro rfl
    cases m <;> cases hm
  rw [Fleet.seats_target f hm, hnow, List.getElem?_modify]
  cases f.seats[k]? with
  | none => exact .absent
  | some seat =>
    by_cases hik : i = k
    · simp only [hik, if_true]
      exact .acts seat m' rfl hstop (fun responses h => hchange responses h hik) hpass
    · simp only [hik, if_false]
      exact .stays seat rfl

theorem now_act (f : Fleet) (i : Nat) (draw : Draw) (task : Session.Task) :
    (f.move (.act i draw task)).now = f.now := by
  cases hs : f.seats[i]? <;> simp only [Fleet.move, Fleet.step, hs]

theorem seatMoved_step (h : r.Sound o reporter) : SeatMoved o k r.fleet.now r.step.fleet.now
    r.fleet.seats[k]? r.step.fleet.seats[k]? := by
  cases hp : r.phase with
  | starting i =>
    have hl := launched hp
    obtain ⟨hlength, -, -⟩ := h.inStep.starting hp
    rw [hl.seats, hl.now, h.order]
    by_cases hlt : k < r.fleet.seats.length
    · rw [List.getElem?_append_left hlt]
      exact seatMoved_refl ..
    · rw [List.getElem?_append_right (Nat.le_of_not_lt hlt),
        List.getElem?_eq_none (Nat.le_of_not_lt hlt), List.getElem?_singleton]
      split
      · have hi : i = k + 1 := by omega
        rw [hi]
        exact .joins rfl
      · exact .absent
  | awaiting i =>
    have hsame (hstep : r.step = r) : SeatMoved o k r.fleet.now r.step.fleet.now
        r.fleet.seats[k]? r.step.fleet.seats[k]? := by
      rw [hstep]
      exact seatMoved_refl ..
    cases hs : r.fleet.seats[i - 1]? with
    | none => exact hsame (by rw [step, hp]; simp only [Fleet.pollLogin, hs])
    | some seat =>
      cases hv : seat.answer with
      | none => exact hsame (by rw [step, hp]; simp only [Fleet.pollLogin_eq hs, hv])
      | some v =>
        have hr := recorded_step hp hs hv
        rw [hr.seats, hr.now]
        exact seatMoved_target o k r.fleet (.ask (i - 1)) rfl (now_ask ..) (by simp) (by simp)
  | pausing i due =>
    rw [step, hp]
    by_cases hdue : due ≤ r.fleet.now
    · simp only [hdue, if_true]
      exact seatMoved_refl ..
    · simp only [hdue, if_false]
      exact seatMoved_refl ..
  | done =>
    rw [step, hp]
    exact seatMoved_refl ..

/-- **What one move is for one session.** -/
theorem seat_move (h : r.Sound o reporter) {m : Move} (hm : r.Allows m)
    (hchange : ∀ responses, m ≠ .change k responses) :
    SeatMoved o k r.fleet.now (r.move m).fleet.now r.fleet.seats[k]?
      (r.move m).fleet.seats[k]? := by
  cases m with
  | step => exact seatMoved_step h
  | act i draw task =>
    exact seatMoved_target o k r.fleet (.act i draw task) rfl (now_act ..) (by simp) (by simp)
  | change i responses =>
    have hother : i ≠ k := fun hik => hchange responses (hik ▸ rfl)
    exact seatMoved_target o k r.fleet (.change i responses) rfl rfl (by simp) fun _ _ => hother
  | pass d =>
    show SeatMoved o k r.fleet.now (r.fleet.now + d) r.fleet.seats[k]?
      (r.fleet.seats.map fun seat => seat.move (.pass d))[k]?
    rw [List.getElem?_map]
    cases hs : r.fleet.seats[k]? with
    | none => exact .absent
    | some seat => exact .passes seat d rfl (hm seat (List.mem_of_getElem? hs))

/-- What has become of one session: it has not started, or it has played its script since its start,
as far as the fleet has come. -/
def Played (o : Order) (k now : Nat) (seat? : Option Seat) (stages : List (Nat × Stage)) : Prop :=
  match seat? with
  | none => stages = []
  | some seat => seat.Plays o.pace (o.script (k + 1)) stages ∧ seat.start + seat.session.clock = now

/-- **A session goes on playing its script.** -/
theorem Played.move {now now' : Nat} {seat? seat?' : Option Seat} {stages : List (Nat × Stage)}
    (h : Played o k now seat? stages) (hm : SeatMoved o k now now' seat? seat?') :
    Played o k now' seat?' (stages ++ shown seat? seat?') := by
  cases hm with
  | absent => exact (List.append_nil stages).trans h
  | joins hnow =>
    obtain rfl : stages = [] := h
    exact ⟨.fresh .., hnow ▸ Nat.add_zero now⟩
  | stays seat hnow =>
    rw [shown, Stage.change_self, List.append_nil]
    exact hnow ▸ h
  | acts seat m hnow hstop hchange hpass =>
    obtain ⟨hplays, hclock⟩ := h
    have hallows : seat.Allows m := by
      cases m with
      | pass d => exact absurd rfl (hpass d)
      | _ => trivial
    refine ⟨hplays.move hallows hstop hchange, ?_⟩
    rw [Seat.start_move, Seat.clock_move hplays.coherent hpass, hnow]
    exact hclock
  | passes seat d hnow hd =>
    obtain ⟨hplays, hclock⟩ := h
    refine ⟨hplays.move hd (by simp) (by simp), ?_⟩
    rw [hnow, ← hclock]
    exact (Nat.add_assoc ..).symm

/-- **Every session plays its own script**, whatever happens in time. -/
theorem played_run (h : r.Sound o reporter) {ms : List Move} (htimely : r.Timely ms)
    (hchange : ∀ responses, .change k responses ∉ ms) {stages : List (Nat × Stage)}
    (hplayed : Played o k r.fleet.now r.fleet.seats[k]? stages) :
    Played o k (r.run ms).fleet.now (r.run ms).fleet.seats[k]? (stages ++ r.stages k ms) := by
  induction ms generalizing r stages with
  | nil => rw [Recruitment.stages, List.append_nil]; exact hplayed
  | cons m ms ih =>
    have hm (responses : Client.Responses) : m ≠ .change k responses :=
      fun hm => hchange responses (hm ▸ List.mem_cons_self)
    have hms (responses : Client.Responses) : .change k responses ∉ ms :=
      fun hm => hchange responses (List.mem_cons_of_mem m hm)
    rw [Recruitment.stages, ← List.append_assoc]
    exact ih (h.run [m]) htimely.2 hms (hplayed.move (seat_move h htimely.1 hm))

/-! ## The law of the isolation -/

/-- The login of a bot is recorded, at the latest when the recruiter has nothing to do, and the
reporter has this record as well. -/
structure Reports (reporter : Reporter) (r : Recruitment) (k : Nat) (v : Verdict) : Prop where
  recorded : r.ready = false → r.completed[k]? = some ⟨identityOf (k + 1), v⟩
  only : ∀ x, r.completed[k]? = some x → x = ⟨identityOf (k + 1), v⟩
  reporter : r.reporter.records = reporter.records ++ r.completed

theorem Sound.reports (h : r.Sound o reporter) {seat : Seat}
    (hseat : r.fleet.seats[k]? = some seat) {v : Verdict} (hv : seat.answer = some v) :
    r.Reports reporter k v := by
  have honly (x : LoginRecord) (hx : r.completed[k]? = some x) : x = ⟨identityOf (k + 1), v⟩ := by
    obtain ⟨hidentity, seat', hseat', hanswer⟩ := h.record k x hx
    cases hseat.symm.trans hseat'
    cases hv.symm.trans hanswer
    rw [← hidentity]
  refine ⟨fun hready => ?_, honly, h.reporter⟩
  have hlt : k < r.fleet.seats.length := (List.getElem?_eq_some_iff.mp hseat).1
  have hrecorded : k < r.completed.length := by
    cases hp : r.phase with
    | starting i => rw [ready, hp] at hready; cases hready
    | awaiting i =>
      obtain ⟨hlength, hcompleted, -⟩ := h.inStep.awaiting hp
      obtain ⟨awaited, hawaited, -, hanswer⟩ := h.awaited hp
      -- a login that has been answered would not be awaited any more
      have hother : i - 1 ≠ k := by
        rintro rfl
        cases hseat.symm.trans hawaited
        rw [hready, hv] at hanswer
        cases hanswer
      omega
    | pausing i due =>
      obtain ⟨hlength, hcompleted, -⟩ := h.inStep.pausing hp
      omega
    | done =>
      obtain ⟨hlength, hcompleted⟩ := h.inStep.done hp
      omega
  have hx := List.getElem?_eq_getElem hrecorded
  rw [hx, honly _ hx]

/-- **The law of the isolation.** Let two fleets be recruited with the same pace, and let one bot
have the same script in both, whatever the scripts of the other bots are. Let the sessions run in time
until this bot has been started in both, and on for as long as nobody asks the fleet to stop, whatever
the other bots do, and however their clients change. Then

* if the login of the bot is settled in both, it is recorded with the same outcome;
* counted from the instant at which its own session started, and up to any instant that both fleets
  have come to, others have seen the same changes of its stage at the same instants, and it has made
  the same calls at the same instants, apart from those at the instant at which it is terminated. -/
theorem isolated (o o' : Order) (reporter reporter' : Reporter) (k : Nat)
    (hpace : o'.pace = o.pace) (hscript : o'.script (k + 1) = o.script (k + 1))
    (ms ms' : List Move) (htimely : (start o reporter).Timely ms)
    (htimely' : (start o' reporter').Timely ms')
    (hchange : ∀ responses, .change k responses ∉ ms)
    (hchange' : ∀ responses, .change k responses ∉ ms') (seat seat' : Seat)
    (hseat : ((start o reporter).run ms).fleet.seats[k]? = some seat)
    (hseat' : ((start o' reporter').run ms').fleet.seats[k]? = some seat') :
    let r := (start o reporter).run ms
    let r' := (start o' reporter').run ms'
    let stages := (start o reporter).stages k ms
    let stages' := (start o' reporter').stages k ms'
    (∀ v v', seat.answer = some v → seat'.answer = some v' →
      v' = v ∧ r.Reports reporter k v ∧ r'.Reports reporter' k v) ∧
    ∀ t, seat.start + t ≤ r.fleet.now → seat'.start + t ≤ r'.fleet.now →
      stages.filter (·.1 < t) = stages'.filter (·.1 < t) ∧
      (seat.calls.filter fun x => x.1 < t ∧ (x.1, .terminated) ∉ stages).Perm
        (seat'.calls.filter fun x => x.1 < t ∧ (x.1, .terminated) ∉ stages') := by
  intro r r' stages stages'
  have hstart := sound_start o reporter
  have hstart' := sound_start o' reporter'
  have hsound : r.Sound o reporter := hstart.run ms
  have hsound' : r'.Sound o' reporter' := hstart'.run ms'
  have hnobody (o : Order) (reporter : Reporter) : Played o k (start o reporter).fleet.now
      (start o reporter).fleet.seats[k]? [] := rfl
  have hplayed := played_run hstart htimely hchange (hnobody o reporter)
  have hplayed' := played_run hstart' htimely' hchange' (hnobody o' reporter')
  rw [hseat] at hplayed
  rw [hseat'] at hplayed'
  obtain ⟨hplays, hnow⟩ := hplayed
  obtain ⟨hplays', hnow'⟩ := hplayed'
  rw [hpace, hscript] at hplays'
  refine ⟨fun v v' hv hv' => ?_, fun t ht ht' => ?_⟩
  · have hverdict := (hsound.serves k seat hseat).verdict_eq hv
    have hverdict' := (hsound'.serves k seat' hseat').verdict_eq hv'
    rw [hscript, hverdict] at hverdict'
    cases hverdict'
    exact ⟨rfl, hsound.reports hseat hv, hsound'.reports hseat' hv'⟩
  · have hclock : t ≤ seat.session.clock := by
      rw [← hnow] at ht
      omega
    have hclock' : t ≤ seat'.session.clock := by
      rw [← hnow'] at ht'
      omega
    exact ⟨hplays.stages_eq hplays' hclock hclock', hplays.calls_perm hplays' hclock hclock'⟩

/-- A bot that is kicked in the end, after another one has been kicked or has crashed. In one of the
two recruitings it still lets go of `forward` in the instant of its end. -/
theorem isolated_from_crash :
    let script : Script :=
      { responses := { sight := .at default }
        events := [(1, .spawn), (1, .login), (4, .kicked "idle")] }
    let order (other : Script) : Order :=
      { target := ⟨"localhost", 25565, "1.21.4"⟩
        count := 2
        stagger := 5
        pace := some ⟨2, 1, 3⟩
        scripts := fun identity => if identity = "Bot1" then other else script }
    let start := Recruitment.start (order { events := [(0, .kicked "full")] })
    let start' := Recruitment.start (order { opening := some (3, .crashed "out of sockets") })
    let life : List Move :=
      [.pass 5, .step, .step, .act 1 .steady .work, .act 1 .steady .work, .pass 1,
        .act 1 .steady .report, .act 1 .steady .work, .pass 1, .act 1 .steady .report,
        .act 1 .steady .work, .step, .pass 1, .act 1 .steady (.routine .move), .pass 1,
        .act 1 .steady (.routine .chat), .act 1 .steady (.routine (.release 0)), .pass 1,
        .act 1 .steady (.routine .move), .pass 1]
    let close : List Move :=
      [.act 1 .steady .report, .act 1 .steady .work, .act 1 .steady (.routine .move),
        .act 1 .steady (.routine .chat), .act 1 .steady (.routine (.release 0)), .pass 1]
    let ms := [.step, .act 0 .steady .work, .act 0 .steady .work, .act 0 .steady .report,
      .act 0 .steady .work, .step] ++ life ++ close
    let ms' := [.step, .act 0 .steady .work, .pass 3, .act 0 .steady .work, .step] ++ life ++
      [.act 1 .steady (.routine (.release 0))] ++ close
    start.Timely ms ∧ start'.Timely ms' ∧ ∃ seat seat',
      (start.run ms).fleet.seats[1]? = some seat ∧ (start'.run ms').fleet.seats[1]? = some seat' ∧
      (start.run ms).completed[1]? = some ⟨"Bot2", .success⟩ ∧
      (start'.run ms').completed[1]? = some ⟨"Bot2", .success⟩ ∧
      (start.stages 1 ms).filter (·.1 < 7) = [(1, .spawned), (2, .loggedIn), (6, .terminated)] ∧
      (start'.stages 1 ms').filter (·.1 < 7) = [(1, .spawned), (2, .loggedIn), (6, .terminated)] ∧
      seat.calls.length = 6 ∧ seat'.calls.length = 7 ∧
      (seat.calls.filter fun x => x.1 < 7 ∧ (x.1, .terminated) ∉ start.stages 1 ms).Perm
        (seat'.calls.filter fun x => x.1 < 7 ∧ (x.1, .terminated) ∉ start'.stages 1 ms') := by
  intro script order start start' life close ms ms'
  have htimely : start.Timely ms := by decide
  have htimely' : start'.Timely ms' := by decide
  have hsome : (start.run ms).fleet.seats[1]?.isSome = true := by decide
  have hsome' : (start'.run ms').fleet.seats[1]?.isSome = true := by decide
  obtain ⟨seat, hseat⟩ := Option.isSome_iff_exists.mp hsome
  obtain ⟨seat', hseat'⟩ := Option.isSome_iff_exists.mp hsome'
  have hknown : (start.run ms).fleet.seats[1]?.map (fun seat =>
      (seat.start, seat.answer, seat.calls.length)) = some (5, some .success, 6) := by decide
  have hknown' : (start'.run ms').fleet.seats[1]?.map (fun seat =>
      (seat.start, seat.answer, seat.calls.length)) = some (8, some .success, 7) := by decide
  rw [hseat, Option.map_some, Option.some.injEq, Prod.mk.injEq, Prod.mk.injEq] at hknown
  rw [hseat', Option.map_some, Option.some.injEq, Prod.mk.injEq, Prod.mk.injEq] at hknown'
  obtain ⟨hstart, hanswer, hcalls⟩ := hknown
  obtain ⟨hstart', hanswer', hcalls'⟩ := hknown'
  obtain ⟨hrecords, hlives⟩ := isolated (order { events := [(0, .kicked "full")] })
    (order { opening := some (3, .crashed "out of sockets") }) {} {} 1 rfl rfl ms ms' htimely
    htimely' (by simp [ms, life, close]) (by simp [ms', life, close]) seat seat' hseat hseat'
  obtain ⟨-, hreports, hreports'⟩ := hrecords .success .success hanswer hanswer'
  obtain ⟨hstages, hperm⟩ := hlives 7 (by rw [hstart]; decide) (by rw [hstart']; decide)
  have hshown : (start.stages 1 ms).filter (·.1 < 7) =
      [(1, .spawned), (2, .loggedIn), (6, .terminated)] := by decide
  exact ⟨htimely, htimely', seat, seat', hseat, hseat', hreports.recorded (by decide),
    hreports'.recorded (by decide), hshown, hstages.symm.trans hshown, hcalls, hcalls', hperm⟩

end Recruitment

end BotFleet
