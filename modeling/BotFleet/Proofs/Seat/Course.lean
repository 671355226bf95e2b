import BotFleet.Proofs.Seat.Timely

/-!
# A session follows its script in time

* `Script.course`: what a script brings about, and when, counted from the start of its session;
* `Session.Punctual`: a session that has seen the first part of it, and nothing late;
* **`Session.Punctual.work`**, `Session.Punctual.report`, `Session.Punctual.pass`: it goes on so;
* **`Seat.punctual_run`**: every session does in a run in time, as long as nobody asks it to stop;
* **`Session.Punctual.filter_eq`**: two such sessions have seen the same up to the same instant.
-/

namespace BotFleet

/-- What a script brings about, and when. -/
def Script.course (s : Script) : List (Nat × Occurrence) :=
  match s.opening with
  | none => []
  | some (delay, .opened) => (Clock.wake 0 delay, .opening .opened) ::
      (s.feed (Clock.wake 0 delay)).map fun r => (r.1, .report r.2)
  | some (delay, o) => [(Clock.wake 0 delay, .opening o)]

namespace Session

/-- A session that has seen the first part of what its script brings about, each thing when it came.
What it has not seen yet has come at this instant, or lies ahead, or comes after the end. -/
def Punctual (s : Session) (seen : List (Nat × Occurrence)) : Prop :=
  match s.phase with
  | .fresh => seen = [] ∧ s.inbox = [] ∧ s.clock = 0
  | .connecting due => seen = [] ∧ s.inbox = [] ∧
      due = s.script.opening.map (Clock.wake 0 ·.1) ∧ ∀ t ∈ due, s.clock ≤ t
  | .running => seen ++ (s.inbox.map (fun r => (s.clock, .report r)) ++
        s.feed.map fun r => (r.1, .report r.2)) = s.script.course ∧
      (∀ x ∈ seen, x.2.isFinal = false) ∧ s.feed.Pairwise (fun r r' => r.1 ≤ r'.1) ∧
      ∀ r ∈ s.feed, s.clock ≤ r.1
  | .finished | .crashed _ => ∃ before x rest, seen = before ++ [x] ∧ x.2.isFinal = true ∧
      (∀ x ∈ before, x.2.isFinal = false) ∧ before ++ x :: rest = s.script.course

variable {s s' : Session} {seen : List (Nat × Occurrence)}

section Phases

variable (h : s.Punctual seen)
include h

theorem Punctual.fresh (hp : s.phase = .fresh) : seen = [] ∧ s.inbox = [] ∧ s.clock = 0 := by
  unfold Punctual at h; rwa [hp] at h

theorem Punctual.connecting {due : Option Nat} (hp : s.phase = .connecting due) :
    seen = [] ∧ s.inbox = [] ∧ due = s.script.opening.map (Clock.wake 0 ·.1) ∧
      ∀ t ∈ due, s.clock ≤ t := by
  unfold Punctual at h; rwa [hp] at h

theorem Punctual.running (hp : s.phase = .running) :
    seen ++ (s.inbox.map (fun r => (s.clock, .report r)) ++
        s.feed.map fun r => (r.1, .report r.2)) = s.script.course ∧
      (∀ x ∈ seen, x.2.isFinal = false) ∧ s.feed.Pairwise (fun r r' => r.1 ≤ r'.1) ∧
      ∀ r ∈ s.feed, s.clock ≤ r.1 := by
  unfold Punctual at h; rwa [hp] at h

end Phases

theorem punctual_start (settings : SessionSettings) (pace : Option Pace) (script : Script) :
    (start settings pace script).Punctual [] :=
  ⟨rfl, rfl, rfl⟩

theorem Punctual.look (h : s.Punctual seen) (hp : s.phase = .running) {r : Report}
    {rest : List Report} (hi : s.inbox = r :: rest) (hr : (Occurrence.report r).isFinal = false)
    (hp' : s'.phase = .running) (hi' : s'.inbox = rest) (hf' : s'.feed = s.feed)
    (hscript : s'.script = s.script) (hclock : s'.clock = s.clock) :
    s'.Punctual (seen ++ [(s.clock, .report r)]) := by
  obtain ⟨hall, hopen, hsorted, hahead⟩ := h.running hp
  unfold Punctual
  rw [hp', hi', hf', hscript, hclock]
  refine ⟨?_, fun x hx => ?_, hsorted, hahead⟩
  · rw [← hall, hi, List.append_assoc]
    rfl
  · rcases List.mem_append.mp hx with hx | hx
    · exact hopen x hx
    · rw [List.mem_singleton.mp hx]
      exact hr

theorem Punctual.due (h : s.Punctual seen) {due : Option Nat}
    (hp : s.phase = .connecting due) (hs : s.stopping = false) {delay : Nat} {o : Opening}
    (ho : s.script.opening = some (delay, o)) (hr : s.ready .work = true) :
    s.clock = Clock.wake 0 delay := by
  obtain ⟨-, -, rfl, hle⟩ := h.connecting hp
  rw [ho] at hp hle
  have hlate : Clock.wake 0 delay ≤ s.clock := by
    simpa [ready_of_connecting hp, hs] using hr
  exact Nat.le_antisymm (hle _ rfl) hlate

/-- **A step of the work sees what has come, when it has come.** -/
theorem Punctual.work (h : s.Punctual seen) (hs : s.stopping = false) {o? : Option Occurrence}
    {es : List Effect} (hr : o?.isSome = true → s.ready .work = true)
    (hw : Worked s o? s' es) :
    s'.Punctual (seen ++ o?.toList.map fun o => (s.clock, o)) := by
  cases hw with
  | idle => simpa using h
  | begun hp =>
    obtain ⟨hseen, hinbox, hclock⟩ := h.fresh hp
    rw [Option.toList_none, List.map_nil, List.append_nil]
    refine ⟨hseen, hinbox, by simp [begun, hclock], fun t ht => ?_⟩
    obtain ⟨o, -, rfl⟩ := Option.map_eq_some_iff.mp ht
    exact Nat.le_add_right ..
  | stoppedEarly _ _ hs' | stopped _ _ _ hs' => rw [hs] at hs'; cases hs'
  | refused due delay f line hp _ ho =>
    refine ⟨[], _, [], by rw [(h.connecting hp).1]; rfl, rfl, by simp, ?_⟩
    simp [fail, Script.course, ho, h.due hp hs ho (hr rfl)]
  | crashed due delay message hp _ ho =>
    refine ⟨[], _, [], by rw [(h.connecting hp).1]; rfl, rfl, by simp, ?_⟩
    simp [collapsed, Script.course, ho, h.due hp hs ho (hr rfl)]
  | opened due delay line hp _ ho =>
    obtain ⟨hseen, hinbox, -⟩ := h.connecting hp
    have hclock := h.due hp hs ho (hr rfl)
    refine ⟨?_, ?_, Script.pairwise_schedule .., ?_⟩
    · simp [Session.opened, hseen, hinbox, Script.course, ho, hclock]
    · simp [hseen, Occurrence.isFinal, Occurrence.verdict?]
    · exact Script.le_of_mem_schedule _ _ _
  | noted _ _ _ hp _ hi hopen => exact h.look hp hi hopen hp rfl rfl rfl rfl
  | spawned _ _ hp _ hi => exact h.look hp hi rfl hp rfl rfl rfl rfl
  | loggedIn _ _ hp _ hi => exact h.look hp hi (by decide) hp rfl rfl rfl rfl
  | ended o inbox e line line' hp ho hv =>
    obtain ⟨hall, hopen, -⟩ := h.running hp
    obtain ⟨-, r, rest, rfl, hi⟩ := ho.resolve_left <| by
      rintro ⟨-, hstop⟩
      rw [hs] at hstop
      cases hstop
    rw [hi] at hall
    exact ⟨seen, _, _, rfl, Occurrence.isFinal_of_failure hv, hopen, hall⟩

theorem Punctual.report (h : s.Punctual seen) (draw : Draw) :
    (s.step draw .report).1.Punctual seen := by
  rcases step_report s draw with ⟨-, hs⟩ | ⟨due, r, rest, hp, hf, hdue, hs⟩ <;> rw [hs]
  · exact h
  · obtain ⟨hall, hopen, hsorted, hahead⟩ := h.running hp
    rw [hf] at hall hsorted hahead
    obtain rfl : due = s.clock := Nat.le_antisymm hdue (hahead _ List.mem_cons_self)
    unfold Punctual
    simp only [hp]
    have hlater : ∀ x ∈ rest, s.clock ≤ x.1 := fun x hx => hahead x (List.mem_cons_of_mem _ hx)
    refine ⟨?_, hopen, (List.pairwise_cons.mp hsorted).2, hlater⟩
    rw [← hall]
    simp

theorem Punctual.congr (h : s.Punctual seen) (hp : s'.phase = s.phase)
    (hi : s'.inbox = s.inbox) (hf : s'.feed = s.feed) (hscript : s'.script = s.script)
    (hclock : s'.clock = s.clock) : s'.Punctual seen := by
  unfold Punctual at h ⊢
  rw [hp, hi, hf, hscript, hclock]
  exact h

theorem Punctual.pass (h : s.Punctual seen) {d : Nat} (hd : s.MayPass d) :
    (s.pass d).Punctual seen := by
  have hwork := hd.1 .work
  cases hp : s.phase with
  | fresh => rw [ready_of_fresh hp] at hwork; cases hwork
  | connecting due =>
    obtain ⟨hseen, hinbox, hdue, -⟩ := h.connecting hp
    unfold Punctual
    simp only [Session.pass, hp]
    refine ⟨hseen, hinbox, hdue, fun t ht => ?_⟩
    rw [ready_of_connecting hp, Bool.or_eq_false_iff, Option.mem_def.mp ht] at hwork
    rw [Option.mem_def.mp ht] at hp
    exact hd.le_of_expects (.inl hp) (by simpa using hwork.2)
  | running =>
    obtain ⟨hall, hopen, hsorted, -⟩ := h.running hp
    rw [ready_of_running hp, Bool.or_eq_false_iff] at hwork
    have hinbox : s.inbox = [] := by simpa using hwork.2
    have hlater := hd.1.ahead hp hsorted
    unfold Punctual
    simp only [Session.pass, hp]
    rw [hinbox] at hall ⊢
    refine ⟨hall, hopen, hsorted, fun r hr => ?_⟩
    cases hf : s.feed with
    | nil => rw [hf] at hr; cases hr
    | cons x rest =>
      have hfirst := hd.le_of_expects (.inr ⟨hp, by rw [hf]; rfl⟩)
        (hlater x (hf ▸ List.mem_cons_self))
      rw [hf] at hr hsorted
      rcases List.mem_cons.mp hr with rfl | hr
      · exact hfirst
      · exact Nat.le_trans hfirst ((List.pairwise_cons.mp hsorted).1 r hr)
  | finished | crashed =>
    unfold Punctual at h ⊢
    simp only [Session.pass, hp] at h ⊢
    exact h

/-- What a session has not seen of its script lies ahead, unless it has seen something final, which
can only be the last thing that it has seen. -/
theorem Punctual.exists_rest (h : s.Punctual seen) : ∃ rest, seen ++ rest = s.script.course ∧
    (∀ x ∈ seen.dropLast, x.2.isFinal = false) ∧
      ((∀ x ∈ rest, s.clock ≤ x.1) ∨ ∃ x ∈ seen, x.2.isFinal = true) := by
  cases hp : s.phase with
  | fresh =>
    obtain ⟨rfl, -, hclock⟩ := h.fresh hp
    exact ⟨_, rfl, by simp, .inl fun x _ => hclock ▸ Nat.zero_le _⟩
  | connecting due =>
    obtain ⟨rfl, -, rfl, hle⟩ := h.connecting hp
    refine ⟨_, rfl, by simp, .inl fun x hx => ?_⟩
    cases ho : s.script.opening with
    | none => rw [ho] at hx; cases hx
    | some opening =>
      obtain ⟨delay, o⟩ := opening
      rw [ho] at hx hle
      have hopening : s.clock ≤ Clock.wake 0 delay := hle _ rfl
      cases o with
      | opened =>
        rcases List.mem_cons.mp hx with rfl | hx
        · exact hopening
        · obtain ⟨r, hr, rfl⟩ := List.mem_map.mp hx
          exact Nat.le_trans hopening (Script.le_of_mem_schedule _ _ _ r hr)
      | failed | crashed => cases List.mem_singleton.mp hx; exact hopening
  | running =>
    obtain ⟨hall, hopen, -, hahead⟩ := h.running hp
    refine ⟨_, hall, fun x hx => hopen x (seen.dropLast_subset hx), .inl fun x hx => ?_⟩
    rcases List.mem_append.mp hx with hx | hx
    · obtain ⟨r, -, rfl⟩ := List.mem_map.mp hx
      exact Nat.le_refl _
    · obtain ⟨r, hr, rfl⟩ := List.mem_map.mp hx
      exact hahead r hr
  | finished | crashed =>
    unfold Punctual at h
    rw [hp] at h
    obtain ⟨before, x, rest, rfl, hfinal, hopen, hall⟩ := h
    refine ⟨rest, by rw [← hall, List.append_assoc]; rfl, ?_, .inr ⟨x, by simp, hfinal⟩⟩
    rwa [List.dropLast_concat]

/-- What one session has seen more than another one is too late to count. -/
theorem filter_eq_of_le_length {seen seen' rest rest' course : List (Nat × Occurrence)} {t : Nat}
    (h : seen ++ rest = course) (h' : seen' ++ rest' = course) (hle : seen.length ≤ seen'.length)
    (hlast : ∀ x ∈ seen'.dropLast, x.2.isFinal = false)
    (hrest : (∀ x ∈ rest, t ≤ x.1) ∨ ∃ x ∈ seen, x.2.isFinal = true) :
    seen.filter (·.1 < t) = seen'.filter (·.1 < t) := by
  obtain ⟨more, rfl⟩ := List.prefix_of_prefix_length_le ⟨rest, h⟩ ⟨rest', h'⟩ hle
  by_cases hmore : more = []
  · rw [hmore, List.append_nil]
  rcases hrest with hrest | ⟨x, hx, hfinal⟩
  · have hnone : more.filter (·.1 < t) = [] := by
      rw [← h', List.append_assoc] at h
      obtain rfl := List.append_cancel_left h
      rw [List.filter_eq_nil_iff]
      intro x hx
      have := hrest x (List.mem_append_left _ hx)
      simp only [decide_eq_true_eq]
      omega
    rw [List.filter_append, hnone, List.append_nil]
  · -- nothing comes after something final
    rw [List.dropLast_append_of_ne_nil hmore] at hlast
    rw [hlast x (List.mem_append_left _ hx)] at hfinal
    cases hfinal

/-- **Two sessions that follow the same script have seen the same up to the same instant.** -/
theorem Punctual.filter_eq (h : s.Punctual seen) {seen' : List (Nat × Occurrence)}
    (h' : s'.Punctual seen') (hscript : s'.script = s.script) {t : Nat} (ht : t ≤ s.clock)
    (ht' : t ≤ s'.clock) : seen.filter (·.1 < t) = seen'.filter (·.1 < t) := by
  obtain ⟨rest, hcourse, hlast, hrest⟩ := h.exists_rest
  obtain ⟨rest', hcourse', hlast', hrest'⟩ := h'.exists_rest
  rw [hscript] at hcourse'
  rcases Nat.le_total seen.length seen'.length with hle | hle
  · exact filter_eq_of_le_length hcourse hcourse' hle hlast'
      (hrest.imp_left fun h x hx => Nat.le_trans ht (h x hx))
  · exact (filter_eq_of_le_length hcourse' hcourse hle hlast
      (hrest'.imp_left fun h x hx => Nat.le_trans ht' (h x hx))).symm

end Session

namespace Seat

open Session (Punctual)

/-- **Whatever happens in time**, but for a request to stop. -/
theorem punctual_move {seat : Seat} (hc : seat.session.Coherent) {h : History}
    (hp : seat.session.Punctual h.sightings) (hs : seat.session.stopping = false) {m : Move}
    (hm : seat.Allows m) (hstop : m ≠ .stop) :
    (seat.move m).session.Punctual (h ++ seat.recent m).sightings := by
  rw [History.sightings_append]
  cases m with
  | act draw task =>
    cases task with
    | work =>
      rw [sightings_recent]
      refine hp.work hs (fun hsome => ?_) (Session.step_work hc draw)
      cases hr : seat.session.ready .work with
      | true => rfl
      | false => rw [Session.sight?_of_idle hr] at hsome; cases hsome
    | report => exact (List.append_nil h.sightings).symm ▸ hp.report draw
    | routine task =>
      rw [sightings_recent, sees_eq_nil seat (by simp), List.map_nil, List.append_nil]
      rcases Session.step_routine seat.session draw task with ⟨-, hs⟩ | ⟨_, -, -, hs⟩ <;>
        rw [move, hs]
      · exact hp
      · exact hp.congr rfl rfl rfl rfl rfl
  | stop => exact absurd rfl hstop
  | change responses =>
    refine (List.append_nil h.sightings).symm ▸ ?_
    rw [move, Session.change]
    split
    · exact hp.congr rfl rfl rfl rfl rfl
    · exact hp
  | ask => exact (List.append_nil h.sightings).symm ▸ hp.congr rfl rfl rfl rfl rfl
  | pass d => exact (List.append_nil h.sightings).symm ▸ hp.pass hm

/-- **Every session follows its script in time**, as long as nobody asks it to stop. -/
theorem punctual_run (start : Nat) (settings : SessionSettings) (pace : Option Pace)
    (script : Script) {ms : List Move} (h : (fresh start settings pace script).Timely ms)
    (hstop : .stop ∉ ms) :
    ((fresh start settings pace script).run ms).session.Punctual
      ((fresh start settings pace script).history ms).sightings := by
  have hfresh := coherent_fresh start settings pace script
  refine (timely_induction (P := fun seat h => seat.session.Coherent ∧
    seat.session.stopping = false ∧ seat.session.Punctual h.sightings) (h := [])
    ⟨hfresh, rfl, Session.punctual_start ..⟩ h fun seat h m hmem hm hp => ?_).2.2
  obtain ⟨hc, hs, hp⟩ := hp
  have hm' : m ≠ .stop := fun hm' => hstop (hm' ▸ hmem)
  refine ⟨coherent_move seat m hc, ?_, punctual_move hc hp hs hm hm'⟩
  rw [← Bool.not_eq_true, stopping_move hc, hs]
  simp [hm']

end Seat

end BotFleet
