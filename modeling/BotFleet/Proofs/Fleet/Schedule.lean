import BotFleet.Proofs.Fleet.Isolation

/-!
# The recruiting in time is one of its runs

A recruiting that runs in time makes moves of the sessions and of the recruiter, and time passes
only when none of them can do anything.

* **`Fleet.exists_run_of_settle`**: what a fleet does at an instant are moves of its sessions;
* `Recruitment.Permits`, `Recruitment.Prompt`: a recruiting on a clock that waits for everybody;
* `Recruitment.Goes`: some moves on such a clock, after which no client responds otherwise;
* **`Recruitment.goes_settleIn`**, **`Recruitment.Rests.goes_pass`**: it goes on so at each instant,
  and in each wait;
* **`Order.exists_run_of_recruit`**: what recruiting a fleet comes to, some run comes to as well.
-/

namespace BotFleet

/-! ## Everything that can be done at an instant -/

namespace Fleet

theorem run_acts {f : Fleet} {i : Nat} {seat : Seat} (hs : f.seats[i]? = some seat)
    (hc : seat.session.Coherent) (draw : Draw) (tasks : List Session.Task) :
    f.run (tasks.map (.act i draw)) =
      { f with
        seats := f.seats.set i (seat.advance (seat.session.steps draw tasks))
        tally := f.tally.applyAll (seat.session.steps draw tasks).2 } := by
  rw [Seat.advance_steps hc]
  induction tasks generalizing f seat with
  | nil =>
    obtain ⟨hlt, rfl⟩ := List.getElem?_eq_some_iff.mp hs
    exact congrArg (fun seats => { f with seats }) (List.set_getElem_self hlt).symm
  | cons task tasks ih =>
    have hmove : f.move (.act i draw task) =
        { f with
          seats := f.seats.set i (seat.move (.act draw task))
          tally := f.tally.applyAll (seat.session.step draw task).2 } := by
      simp only [move, step, hs]
      rfl
    have hnext : (f.move (.act i draw task)).seats[i]? = some (seat.move (.act draw task)) := by
      rw [hmove]
      exact List.getElem?_set_self (List.getElem?_eq_some_iff.mp hs).1
    rw [List.map_cons, run_cons, ih hnext (Seat.coherent_move seat (.act draw task) hc), hmove]
    simp only [List.set_set, Session.steps, Tally.applyAll, List.foldl_append, List.map_cons,
      Seat.run_cons]
    rfl

theorem exists_run_of_settleSeats (draw : Draw) (seats : List Seat) (before : List Seat) {f : Fleet}
    (hf : f.seats = before ++ seats) (hc : ∀ seat ∈ seats, seat.session.Coherent) :
    ∃ acts : List (Nat × Session.Task), f.run (acts.map fun a => .act a.1 draw a.2) =
      { f with
        seats := before ++ (settleSeats draw seats f.tally).1
        tally := (settleSeats draw seats f.tally).2 } := by
  induction seats generalizing before f with
  | nil => exact ⟨[], congrArg (fun seats => { f with seats }) hf⟩
  | cons seat seats ih =>
    obtain ⟨hseat, hseats⟩ := List.forall_mem_cons.mp hc
    obtain ⟨tasks, -, htasks⟩ := Session.settle_eq_steps hseat draw
    have hs : f.seats[before.length]? = some seat := by simp [hf]
    have hfirst := run_acts hs hseat draw tasks
    rw [← htasks] at hfirst
    obtain ⟨acts, hacts⟩ := ih (before ++ [seat.advance (seat.session.settle draw)])
      (f := f.run (tasks.map (.act before.length draw))) (by rw [hfirst, hf]; simp) hseats
    refine ⟨tasks.map (before.length, ·) ++ acts, ?_⟩
    rw [List.map_append, run_append, List.map_map]
    refine hacts.trans ?_
    rw [hfirst]
    simp [settleSeats]

/-- **What a fleet does at an instant** are moves of its sessions. -/
theorem exists_run_of_settle {f : Fleet} (hc : f.Coherent) (draw : Draw) :
    ∃ acts : List (Nat × Session.Task),
      f.run (acts.map fun a => .act a.1 draw a.2) = f.settle draw := by
  obtain ⟨acts, hacts⟩ := exists_run_of_settleSeats draw f.seats [] rfl hc
  exact ⟨acts, hacts⟩

end Fleet

/-! ## The recruiting -/

namespace Recruitment

variable {o : Order} {reporter : Reporter} {r r' r'' : Recruitment}

/-! ## A clock that waits for everybody -/

/-- The recruiter lets time pass when it has nothing to do, and not beyond the end of its pause. -/
def MayPass (r : Recruitment) (d : Nat) : Prop :=
  r.ready = false ∧
    match r.phase with
    | .pausing _ due => r.fleet.now + d ≤ due
    | _ => True

/-- Time passes only when neither the recruiter nor any session can do anything, and not beyond what
is due. -/
def Permits (r : Recruitment) : Move → Prop
  | .pass d => r.MayPass d ∧ ∀ seat ∈ r.fleet.seats, seat.session.MayPass d
  | _ => True

/-- A recruiting on a clock that waits for everybody. -/
def Prompt : Recruitment → List Move → Prop
  | _, [] => True
  | r, m :: ms => r.Permits m ∧ Prompt (r.move m) ms

instance (r : Recruitment) (d : Nat) : Decidable (r.MayPass d) := by
  unfold MayPass
  cases r.phase <;> infer_instance

instance decidablePermits (r : Recruitment) : ∀ m : Move, Decidable (r.Permits m)
  | .pass d => inferInstanceAs (Decidable (r.MayPass d ∧ r.Allows (.pass d)))
  | .step | .act .. | .change .. => .isTrue trivial

instance decidablePrompt : ∀ (r : Recruitment) (ms : List Move), Decidable (r.Prompt ms)
  | _, [] => .isTrue trivial
  | r, m :: ms => @instDecidableAnd _ _ _ (decidablePrompt (r.move m) ms)

theorem Permits.allows {m : Move} (h : r.Permits m) : r.Allows m := by
  cases m with
  | pass d => exact h.2
  | _ => trivial

theorem MayPass.le_of_pausing {d i due : Nat} (h : r.MayPass d) (hp : r.phase = .pausing i due) :
    r.fleet.now + d ≤ due := by
  have hle := h.2
  rwa [hp] at hle

theorem run_append (r : Recruitment) (ms ms' : List Move) :
    r.run (ms ++ ms') = (r.run ms).run ms' :=
  List.foldl_append

theorem prompt_append (r : Recruitment) (ms ms' : List Move) :
    r.Prompt (ms ++ ms') ↔ r.Prompt ms ∧ (r.run ms).Prompt ms' := by
  induction ms generalizing r with
  | nil => exact (iff_of_eq (true_and _)).symm
  | cons m ms ih => rw [List.cons_append, Prompt, Prompt, ih, and_assoc]; rfl

/-- Some moves lead from one state of the recruiting to the other on a clock that waits for
everybody, and no client responds otherwise than before in them. -/
def Goes (r r' : Recruitment) : Prop :=
  ∃ ms : List Move, r.Prompt ms ∧ (∀ k responses, .change k responses ∉ ms) ∧ r.run ms = r'

theorem Goes.trans (h : Goes r r') (h' : Goes r' r'') : Goes r r'' := by
  obtain ⟨ms, hprompt, hchange, rfl⟩ := h
  obtain ⟨ms', hprompt', hchange', rfl⟩ := h'
  refine ⟨ms ++ ms', (prompt_append ..).mpr ⟨hprompt, hprompt'⟩, fun k responses => ?_,
    run_append ..⟩
  simp [hchange k responses, hchange' k responses]

theorem goes_step (r : Recruitment) : Goes r r.step := ⟨[.step], ⟨trivial, trivial⟩, by simp, rfl⟩

theorem exists_run_of_fleet_settle (hc : r.fleet.Coherent) (draw : Draw) :
    ∃ acts : List (Nat × Session.Task), r.run (acts.map fun a => .act a.1 draw a.2) =
      { r with fleet := r.fleet.settle draw } := by
  obtain ⟨acts, hacts⟩ := Fleet.exists_run_of_settle hc draw
  have hrun : r.run (acts.map fun a => .act a.1 draw a.2) =
      { r with fleet := r.fleet.run (acts.map fun a => .act a.1 draw a.2) } := by
    clear hacts hc
    induction acts generalizing r with
    | nil => rfl
    | cons a acts ih => exact ih
  exact ⟨acts, by rw [hrun, hacts]⟩

theorem goes_fleet_settle (hc : r.fleet.Coherent) (draw : Draw) :
    Goes r { r with fleet := r.fleet.settle draw } := by
  obtain ⟨acts, hacts⟩ := exists_run_of_fleet_settle hc draw
  refine ⟨acts.map fun a => .act a.1 draw a.2, ?_, by simp, hacts⟩
  clear hacts hc
  induction acts generalizing r with
  | nil => trivial
  | cons a acts ih => exact ⟨trivial, ih⟩

/-- **The recruiting goes on at each instant.** -/
theorem goes_settleIn (draw : Draw) (fuel : Nat) (h : r.Sound o reporter) :
    Goes r (r.settleIn draw fuel) := by
  induction fuel generalizing r with
  | zero => exact goes_fleet_settle h.coherent draw
  | succ fuel ih =>
    have hsettled := goes_fleet_settle h.coherent draw
    have hsound := h.goes (Fleet.goes_settle h.coherent draw)
    rw [settleIn]
    split
    · exact hsettled.trans ((goes_step _).trans (ih hsound.step))
    · exact hsettled

theorem exists_wait_le (draw : Draw) {seat : Seat} (hseat : seat ∈ r.fleet.seats) {w : Nat}
    (hw : seat.session.wait? = some w) : ∃ d, (timed draw).wait? r = some d ∧ d ≤ w := by
  obtain ⟨d, hd, hle⟩ := Fleet.exists_wait_le hseat hw
  cases hp : r.phase with
  | pausing i due =>
    obtain ⟨d', hd', hle'⟩ := exists_min?_le (List.mem_append_left
      (Fleet.waitFor r.fleet.now [due]).toList (Option.mem_toList.mpr hd))
    refine ⟨d', ?_, Nat.le_trans hle' hle⟩
    simp only [timed, hp]
    exact hd'
  | _ =>
    refine ⟨d, ?_, hle⟩
    simp only [timed, hp]
    exact hd

theorem Rests.wait_pos (h : r.Rests) (draw : Draw) {d : Nat} (hd : (timed draw).wait? r = some d) :
    0 < d := by
  cases hp : r.phase with
  | pausing i due =>
    have hahead : r.fleet.now < due := by simpa [Recruitment.ready, hp] using h.ready
    obtain ⟨d', hd', hpos, -⟩ := Fleet.exists_sooner (Fleet.wait_pos h.fleet) hahead
    simp only [timed, hp] at hd
    cases hd.symm.trans hd'
    exact hpos
  | _ =>
    simp only [timed, hp] at hd
    exact Fleet.wait_pos h.fleet hd

theorem Rests.permits (h : r.Rests) (draw : Draw) {d : Nat}
    (hd : ∀ w ∈ (timed draw).wait? r, d ≤ w) : r.Permits (.pass d) := by
  refine ⟨⟨h.ready, ?_⟩, fun seat hseat => ⟨h.fleet seat hseat, fun w hw => ?_⟩⟩
  · cases hp : r.phase with
    | pausing i due =>
      have hahead : r.fleet.now < due := by simpa [Recruitment.ready, hp] using h.ready
      obtain ⟨w, hw, -, hle⟩ := Fleet.exists_sooner (Fleet.wait_pos h.fleet) hahead
      have hwait : (timed draw).wait? r = some w := by simp only [timed, hp]; exact hw
      have hdw := hd w hwait
      show r.fleet.now + d ≤ due
      omega
    | _ => trivial
  · obtain ⟨w', hw', hle⟩ := exists_wait_le draw hseat hw
    exact Nat.le_trans (hd w' hw') hle

/-- **The recruiting goes on in each wait.** -/
theorem Rests.goes_pass (h : r.Rests) (draw : Draw) {d : Nat}
    (hd : ∀ w ∈ (timed draw).wait? r, d ≤ w) : Goes r ((timed draw).pass d r) :=
  ⟨[.pass d], ⟨h.permits draw hd, trivial⟩, by simp, rfl⟩

end Recruitment

namespace Order

variable {o : Order} {draw : Draw} {memory limit : Nat} {reporter : Reporter} {r : Recruitment}
  {done : Bool}

/-- A recruiting for which there is room is a wait until it is done. -/
theorem recruit_eq_ok_iff : o.recruit draw memory limit reporter = .ok (r, done) ↔
    reserve memory o.count = .ok () ∧ (Recruitment.timed draw).await Recruitment.isDone limit
      (Recruitment.start o reporter).step = (r, done) := by
  rw [recruit]
  cases hreserve : reserve memory o.count with
  | error e =>
    constructor
    · intro h
      cases h
    · rintro ⟨h, -⟩
      cases h
  | ok =>
    constructor
    · exact fun h => ⟨rfl, Except.ok.inj h⟩
    · exact fun h => congrArg Except.ok h.2

theorem reserved_of_recruit (h : o.recruit draw memory limit reporter = .ok (r, true)) :
    reserve memory o.count = .ok () ∧ r.isDone = true := by
  obtain ⟨hreserve, hawait⟩ := recruit_eq_ok_iff.mp h
  have hdone := Timed.done_of_await limit _ (congrArg Prod.snd hawait)
  rw [hawait] at hdone
  exact ⟨hreserve, hdone⟩

/-- **What recruiting a fleet comes to, some run in time comes to as well.** -/
theorem exists_run_of_recruit (h : o.recruit draw memory limit reporter = .ok (r, done)) :
    Recruitment.Goes (.start o reporter) r := by
  have hstart := Recruitment.sound_start o reporter
  have hawait : ((Recruitment.timed draw).await Recruitment.isDone limit
      (Recruitment.start o reporter).step).1 = r := congrArg Prod.fst (recruit_eq_ok_iff.mp h).2
  rw [← hawait, Timed.await]
  split
  · exact Recruitment.goes_step _
  · refine (Timed.runUntil_keeps_of_rest (Q := Recruitment.Rests)
      (P := fun r => r.Sound o reporter ∧ Recruitment.Goes (.start o reporter) r)
      (fun r hr => ?_) (fun r d hrests hd => hrests.wait_pos draw hd)
      (fun r d hr hrests hd => ?_) limit _ ⟨hstart.step, Recruitment.goes_step _⟩).2
    · obtain ⟨last, hdue⟩ := hr.1.exists_dueBy
      obtain ⟨hsound, -, hrests, -⟩ := Recruitment.settle_rests draw hr.1 hdue
      exact ⟨⟨hsound, hr.2.trans (Recruitment.goes_settleIn draw _ hr.1)⟩, hrests⟩
    · exact ⟨hr.1.pass draw d, hr.2.trans (hrests.goes_pass draw hd)⟩

end Order

end BotFleet
