import BotFleet.Proofs.Routine.Twins
import BotFleet.Proofs.Seat.Calls
import BotFleet.Proofs.Seat.Course
import BotFleet.Proofs.Seat.Stages
import BotFleet.Proofs.Seat.Ticks

/-!
# Sessions of the same script

Two sessions that follow the same script in time look alike up to any instant that both have come to,
apart from what they do in the instant of their end.

* `Session.Undisturbed`, `Seat.undisturbed_run`: a session that nobody has disturbed;
* `Session.Undisturbed.endedAt_eq`, `Session.Undisturbed.spawnedAt_eq`: they spawn and end at the
  same instants;
* **`Session.Undisturbed.moments_perm`**: they have the same turns;
* `Seat.Plays`: a session that has played its script, and what others have seen of it;
* **`Seat.Plays.stages_eq`**, **`Seat.Plays.calls_perm`**: two of them show the same stages and make
  the same calls.
-/

namespace BotFleet

namespace History

theorem spawnedAt_eq (h : History) :
    h.spawnedAt = (h.sightings.find? (·.2 = .report (.event .spawn))).map Prod.fst := by
  induction h with
  | nil => rfl
  | cons x h ih =>
    obtain ⟨n, mark⟩ := x
    cases mark with
    | stop | turn => simpa [spawnedAt, sightings, Mark.sight?] using ih
    | sight o =>
      by_cases ho : o = .report (.event .spawn)
      · simp [spawnedAt, sightings, Mark.sight?, ho]
      · simpa [spawnedAt, sightings, Mark.sight?, ho] using ih

theorem endedAt_eq {h : History} (hstop : ∀ x ∈ h, x.2 ≠ .stop) :
    h.endedAt = (h.sightings.find? (·.2.isFinal)).map Prod.fst := by
  induction h with
  | nil => rfl
  | cons x h ih =>
    obtain ⟨hx, hrest⟩ := List.forall_mem_cons.mp hstop
    obtain ⟨n, mark⟩ := x
    cases mark with
    | stop => exact absurd rfl hx
    | turn => simpa [endedAt, sightings, Mark.sight?, Mark.isEnd] using ih hrest
    | sight o =>
      cases ho : o.isFinal with
      | true => simp [endedAt, sightings, Mark.sight?, Mark.isEnd, ho]
      | false => simpa [endedAt, sightings, Mark.sight?, Mark.isEnd, ho] using ih hrest

theorem sorted_sightings {h : History} (hsorted : h.Pairwise fun x y => x.1 ≤ y.1) :
    h.sightings.Pairwise fun x y => x.1 ≤ y.1 := by
  refine hsorted.filterMap _ fun x y hle x' hx y' hy => ?_
  obtain ⟨o, -, rfl⟩ := Option.map_eq_some_iff.mp hx
  obtain ⟨o', -, rfl⟩ := Option.map_eq_some_iff.mp hy
  exact hle

theorem find?_filter {xs : List (Nat × Occurrence)} (h : xs.Pairwise fun x y => x.1 ≤ y.1)
    (p : Nat × Occurrence → Bool) (t : Nat) :
    ((xs.find? p).map Prod.fst).filter (· < t) =
      ((xs.filter (·.1 < t)).find? p).map Prod.fst := by
  induction xs with
  | nil => rfl
  | cons x xs ih =>
    have hxs := (List.pairwise_cons.mp h).2
    by_cases hlt : x.1 < t
    · rw [List.filter_cons_of_pos (by simpa using hlt), List.find?_cons, List.find?_cons]
      cases hp : p x with
      | true => simp [hlt]
      | false => exact ih hxs
    · have hlate := filter_eq_nil_of_late h hlt
      rw [hlate, List.find?_nil, Option.map_none, Option.filter_eq_none_iff]
      intro n hn
      obtain ⟨y, hy, rfl⟩ := Option.map_eq_some_iff.mp hn
      exact List.filter_eq_nil_iff.mp hlate y (List.mem_of_find?_eq_some hy)

end History

namespace Session

/-- A session that nobody has disturbed: it has followed its script in time, and its client has
responded as the script says. -/
structure Undisturbed (s : Session) (h : History) : Prop where
  abides : s.Abides h
  punctual : s.Punctual h.sightings
  sorted : h.Pairwise fun x y => x.1 ≤ y.1
  unstopped : ∀ x ∈ h, x.2 ≠ .stop
  responses : ∀ x ∈ h.turns, x.2.responses = s.script.responses

theorem Abides.within {s : Session} {h : History} (ha : s.Abides h) : ∀ x ∈ h.turns,
    (∃ a ∈ h.spawnedAt, a ≤ x.1) ∧ x.1 ≤ h.endedAt.getD s.clock := by
  intro x hx
  cases hat : h.spawnedAt with
  | none => rw [ha.turns_eq_nil hat] at hx; cases hx
  | some a =>
    have hmem : x ∈ h.turnsOf x.2.kind := List.mem_filter.mpr ⟨hx, by simp⟩
    rcases ha.of_spawnedAt hat with ⟨-, hnone⟩ | ⟨r, pace, -, hfollows⟩
    · rw [hnone] at hx
      cases hx
    · exact ⟨⟨a, rfl, hfollows.start_le _ x hmem⟩, hfollows.le_end _ x hmem⟩

/-- By when a session has ended, as far as it is known at an instant. -/
def horizon (ended : Option Nat) (t : Nat) : Nat := (ended.filter (· < t)).getD t

/-- What comes before the horizon comes before the instant and not in that of the end. -/
theorem lt_horizon_iff {ended : Option Nat} {now n : Nat} (h : n ≤ ended.getD now) (t : Nat) :
    n < horizon ended t ↔ n < t ∧ ended ≠ some n := by
  cases ended with
  | none => simp [horizon]
  | some e =>
    have hle : n ≤ e := h
    by_cases he : e < t <;> simp [horizon, Option.filter, he] <;> omega

theorem horizon_le {ended : Option Nat} {t now : Nat} (h : t ≤ now) :
    horizon ended t ≤ ended.getD now := by
  cases ended with
  | none => exact h
  | some e => by_cases he : e < t <;> simp [horizon, Option.filter, he]; omega

theorem horizon_le_self (ended : Option Nat) (t : Nat) : horizon ended t ≤ t := by
  cases ended with
  | none => exact Nat.le_refl t
  | some e => by_cases he : e < t <;> simp [horizon, Option.filter, he]; omega

namespace Undisturbed

variable {s s' : Session} {h h' : History} {t : Nat}

section Twins

variable (hu : s.Undisturbed h) (hu' : s'.Undisturbed h') (hscript : s'.script = s.script)
  (ht : t ≤ s.clock) (ht' : t ≤ s'.clock)
include hu hu' hscript ht ht'

theorem sightings_eq : h.sightings.filter (·.1 < t) = h'.sightings.filter (·.1 < t) :=
  hu.punctual.filter_eq hu'.punctual hscript ht ht'

theorem first_eq (p : Nat × Occurrence → Bool) :
    ((h.sightings.find? p).map Prod.fst).filter (· < t) =
      ((h'.sightings.find? p).map Prod.fst).filter (· < t) := by
  rw [History.find?_filter (History.sorted_sightings hu.sorted),
    History.find?_filter (History.sorted_sightings hu'.sorted),
    sightings_eq hu hu' hscript ht ht']

theorem spawnedAt_eq : h.spawnedAt.filter (· < t) = h'.spawnedAt.filter (· < t) := by
  rw [h.spawnedAt_eq, h'.spawnedAt_eq]
  exact first_eq hu hu' hscript ht ht' _

theorem endedAt_eq : h.endedAt.filter (· < t) = h'.endedAt.filter (· < t) := by
  rw [History.endedAt_eq hu.unstopped, History.endedAt_eq hu'.unstopped]
  exact first_eq hu hu' hscript ht ht' _

end Twins

theorem mem_turnsOf (hu : s.Undisturbed h) (k : Turn.Kind) :
    ∀ x ∈ h.turnsOf k, x.2.kind = k ∧ x.2.responses = s.script.responses := by
  intro x hx
  obtain ⟨hmem, hkind⟩ := List.mem_filter.mp hx
  exact ⟨by simpa using hkind, hu.responses x hmem⟩

theorem turnsOf_eq_nil (hu : s.Undisturbed h) (hspawned : h.spawnedAt.filter (· < t) = none)
    (k : Turn.Kind) {n : Nat} (hn : n ≤ t) : ((h.turnsOf k).map Prod.fst).filter (· < n) = [] := by
  rw [List.filter_eq_nil_iff]
  intro m hm
  obtain ⟨x, hx, rfl⟩ := List.mem_map.mp hm
  obtain ⟨⟨a, hat, hle⟩, -⟩ := hu.abides.within x (List.mem_of_mem_filter hx)
  have hlate := Option.filter_eq_none_iff.mp hspawned a hat
  simp only [decide_eq_true_eq] at hlate ⊢
  omega

theorem turnsOf_perm (hu : s.Undisturbed h) (hu' : s'.Undisturbed h')
    (hscript : s'.script = s.script) (hpace : s'.pace = s.pace) (ht : t ≤ s.clock)
    (ht' : t ≤ s'.clock) (k : Turn.Kind) :
    (((h.turnsOf k).map Prod.fst).filter (· < horizon h.endedAt t)).Perm
      (((h'.turnsOf k).map Prod.fst).filter (· < horizon h'.endedAt t)) := by
  have hspawned := spawnedAt_eq hu hu' hscript ht ht'
  have hhorizon : horizon h'.endedAt t = horizon h.endedAt t :=
    congrArg (Option.getD · t) (endedAt_eq hu hu' hscript ht ht').symm
  have hle := horizon_le_self h.endedAt t
  rw [hhorizon]
  cases ha : h.spawnedAt.filter (· < t) with
  | none => rw [hu.turnsOf_eq_nil ha k hle, hu'.turnsOf_eq_nil (hspawned ▸ ha) k hle]
  | some a =>
    have hat := (Option.filter_eq_some_iff.mp ha).1
    have hat' := (Option.filter_eq_some_iff.mp (hspawned ▸ ha)).1
    rcases hu.abides.of_spawnedAt hat with ⟨hnone, hidle⟩ | ⟨r, pace, hp, hfollows⟩ <;>
      rcases hu'.abides.of_spawnedAt hat' with ⟨hnone', hidle'⟩ | ⟨r', pace', hp', hfollows'⟩
    · rw [History.turnsOf, History.turnsOf, hidle, hidle']
    · rw [hpace, hnone] at hp'
      cases hp'
    · rw [hpace, hp] at hnone'
      cases hnone'
    · rw [hpace, hp] at hp'
      cases hp'
      refine hfollows.filter_perm hfollows' hu.mem_turnsOf (hscript ▸ hu'.mem_turnsOf)
        (horizon_le ht) ?_ k
      rw [← hhorizon]
      exact horizon_le ht'

/-- **Two sessions of the same script have the same turns**, up to an instant that both have come to,
apart from that of their end. -/
theorem moments_perm (hu : s.Undisturbed h) (hu' : s'.Undisturbed h')
    (hscript : s'.script = s.script) (hpace : s'.pace = s.pace) (ht : t ≤ s.clock)
    (ht' : t ≤ s'.clock) :
    (h.moments.filter fun x => x.1 < t ∧ h.endedAt ≠ some x.1).Perm
      (h'.moments.filter fun x => x.1 < t ∧ h'.endedAt ≠ some x.1) := by
  have hfilter {s : Session} {h : History} (hu : s.Undisturbed h) :
      (h.moments.filter fun x => x.1 < t ∧ h.endedAt ≠ some x.1) =
        h.moments.filter fun x => x.1 < horizon h.endedAt t := by
    refine List.filter_congr fun x hx => decide_eq_decide.mpr ?_
    obtain ⟨y, hy, rfl⟩ := List.mem_map.mp hx
    exact (lt_horizon_iff (hu.abides.within y hy).2 t).symm
  have hhorizon : horizon h'.endedAt t = horizon h.endedAt t :=
    congrArg (Option.getD · t) (endedAt_eq hu hu' hscript ht ht').symm
  rw [hfilter hu, hfilter hu', List.perm_iff_count]
  rintro ⟨n, k⟩
  by_cases hn : n < horizon h.endedAt t
  · have hcount := (turnsOf_perm hu hu' hscript hpace ht ht' k).count_eq n
    rw [hhorizon] at hcount ⊢
    rw [List.count_filter (by simpa using hn), List.count_filter (by simpa using hn)] at hcount ⊢
    rw [History.count_moments, History.count_moments, hcount]
  · rw [List.count_eq_zero_of_not_mem (by simp [hn]),
      List.count_eq_zero_of_not_mem (by simp [hn, hhorizon])]

theorem mem_changes (hu : s.Undisturbed h) (hturns : h.turns ≠ []) {n : Nat}
    (hended : h.endedAt = some n)
    (hshown : s.published = h.sightings.foldl (fun stage x => stage.after x.2) .connecting) :
    (n, .terminated) ∈ Stage.changes .connecting h.sightings := by
  rw [History.endedAt_eq hu.unstopped] at hended
  have hopen (hall : ∀ x ∈ h.sightings, x.2.isFinal = false) : False := by
    rw [List.find?_eq_none.mpr (by simpa using hall)] at hended
    cases hended
  cases hp : s.phase with
  | fresh => exact (hopen (by simp [(hu.punctual.fresh hp).1])).elim
  | connecting due => exact (hopen (by simp [(hu.punctual.connecting hp).1])).elim
  | running => exact (hopen (hu.punctual.running hp).2.1).elim
  | crashed message => exact absurd (hu.abides.idle (hu.abides.coherent.crashed hp).routine) hturns
  | finished =>
    have hpunctual := hu.punctual
    unfold Punctual at hpunctual
    rw [hp] at hpunctual
    obtain ⟨before, x, rest, hseen, hfinal, hbefore, -⟩ := hpunctual
    rw [hseen] at hended hshown ⊢
    rw [List.find?_append, List.find?_eq_none.mpr (by simpa using hbefore), Option.none_or,
      List.find?_singleton, if_pos hfinal] at hended
    cases hended
    rw [(hu.abides.coherent.finished hp).published] at hshown
    exact Stage.mem_changes (by decide) hbefore hshown.symm

end Undisturbed

end Session

namespace Seat

open Session (Undisturbed)

/-- **A session is undisturbed in every run in time**, as long as nobody asks it to stop and its
client responds as its script says. -/
theorem undisturbed_run (start : Nat) (settings : SessionSettings) (pace : Option Pace)
    (script : Script) {ms : List Move} (htimely : (fresh start settings pace script).Timely ms)
    (hstop : .stop ∉ ms) (hchange : ∀ responses, .change responses ∉ ms) :
    ((fresh start settings pace script).run ms).session.Undisturbed
      ((fresh start settings pace script).history ms) where
  abides := abides_run start settings pace script htimely
  punctual := punctual_run start settings pace script htimely hstop
  sorted := (sorted_history (coherent_fresh ..) ms).2
  unstopped := unstopped_history _ hstop
  responses := by
    have hc := coherent_fresh start settings pace script
    rw [script_run hc ms]
    exact responses_history hc (Q := (· = script.responses)) rfl
      fun responses hm => absurd hm (hchange responses)

/-- A session that has played its script undisturbed, and the changes of stage that others saw. -/
def Plays (pace : Option Pace) (script : Script) (seat : Seat) (stages : List (Nat × Stage)) :
    Prop :=
  ∃ start settings ms, (fresh start settings pace script).Timely ms ∧ .stop ∉ ms ∧
    (∀ responses, .change responses ∉ ms) ∧ (fresh start settings pace script).run ms = seat ∧
      (fresh start settings pace script).stages ms = stages

theorem filter_calls (moments : List (Nat × Turn.Kind)) (asks : Turn.Kind → List Client.Call.Kind)
    (p : Nat → Bool) :
    (moments.flatMap fun x => (asks x.2).map (x.1, ·)).filter (p ·.1) =
      (moments.filter (p ·.1)).flatMap fun x => (asks x.2).map (x.1, ·) := by
  induction moments with
  | nil => rfl
  | cons x moments ih =>
    rw [List.flatMap_cons, List.filter_append, ih, List.filter_map]
    cases hp : p x.1 with
    | true =>
      have hall : (asks x.2).filter ((p ·.1) ∘ (x.1, ·)) = asks x.2 :=
        List.filter_eq_self.mpr fun _ _ => hp
      rw [hall, List.filter_cons, if_pos hp, List.flatMap_cons]
    | false =>
      have hnone : (asks x.2).filter ((p ·.1) ∘ (x.1, ·)) = [] :=
        List.filter_eq_nil_iff.mpr fun _ _ => by simp [hp]
      rw [hnone, List.filter_cons, if_neg (by simp [hp])]
      rfl

namespace Plays

variable {pace : Option Pace} {script : Script} {seat seat' : Seat}
  {stages stages' : List (Nat × Stage)} {t : Nat}

theorem coherent (h : Plays pace script seat stages) : seat.session.Coherent := by
  obtain ⟨start, settings, ms, -, -, -, rfl, -⟩ := h
  exact coherent_run (coherent_fresh ..) ms

theorem fresh (start : Nat) (settings : SessionSettings) (pace : Option Pace) (script : Script) :
    Plays pace script (.fresh start settings pace script) [] :=
  ⟨start, settings, [], trivial, by simp, by simp, rfl, rfl⟩

theorem move (h : Plays pace script seat stages) {m : Move} (hm : seat.Allows m) (hstop : m ≠ .stop)
    (hchange : ∀ responses, m ≠ .change responses) :
    Plays pace script (seat.move m) (stages ++ Stage.change seat.session.clock
      seat.session.published (seat.move m).session.published) := by
  obtain ⟨start, settings, ms, htimely, hstops, hchanges, rfl, rfl⟩ := h
  refine ⟨start, settings, ms ++ [m], (timely_append ..).mpr ⟨htimely, hm, trivial⟩, ?_, ?_,
    run_append .., ?_⟩
  · simp [hstops, Ne.symm hstop]
  · intro responses
    simp [hchanges responses, Ne.symm (hchange responses)]
  · rw [stages_append, Seat.stages, Seat.stages, List.append_nil]

theorem exists_history (h : Plays pace script seat stages) : ∃ history : History,
    seat.session.Undisturbed history ∧ seat.session.pace = pace ∧ seat.session.script = script ∧
      stages = Stage.changes .connecting history.sightings ∧
      seat.calls = (history.moments.flatMap fun x => (script.responses.asks x.2).map (x.1, ·)) ∧
      ∀ n, history.turns ≠ [] → history.endedAt = some n → (n, .terminated) ∈ stages := by
  obtain ⟨start, settings, ms, htimely, hstop, hchange, rfl, rfl⟩ := h
  have hc := coherent_fresh start settings pace script
  have hu := undisturbed_run start settings pace script htimely hstop hchange
  have hscript := script_run hc ms
  obtain ⟨hstages, hpublished⟩ := stages_eq_changes hc (Session.showsSpawn_start settings pace script) ms
  refine ⟨_, hu, pace_run hc ms, hscript, hstages, ?_, fun n hturns hended => ?_⟩
  · refine calls_run start settings pace script ms fun x hx => ?_
    rw [hu.responses x hx, hscript]
    rfl
  · rw [hstages]
    exact hu.mem_changes hturns hended hpublished

/-- **Two sessions of the same script show the same stages**, up to an instant that both have come
to. -/
theorem stages_eq (h : Plays pace script seat stages) (h' : Plays pace script seat' stages')
    (ht : t ≤ seat.session.clock) (ht' : t ≤ seat'.session.clock) :
    stages.filter (·.1 < t) = stages'.filter (·.1 < t) := by
  obtain ⟨history, hu, -, hscript, rfl, -⟩ := h.exists_history
  obtain ⟨history', hu', -, hscript', rfl, -⟩ := h'.exists_history
  rw [Stage.filter_changes (History.sorted_sightings hu.sorted),
    Stage.filter_changes (History.sorted_sightings hu'.sorted),
    hu.sightings_eq hu' (hscript'.trans hscript.symm) ht ht']

/-- **Two sessions of the same script make the same calls**, up to an instant that both have come to,
apart from those in the instant in which they are terminated. -/
theorem calls_perm (h : Plays pace script seat stages) (h' : Plays pace script seat' stages')
    (ht : t ≤ seat.session.clock) (ht' : t ≤ seat'.session.clock) :
    (seat.calls.filter fun x => x.1 < t ∧ (x.1, .terminated) ∉ stages).Perm
      (seat'.calls.filter fun x => x.1 < t ∧ (x.1, .terminated) ∉ stages') := by
  have hstages := h.stages_eq h' ht ht'
  obtain ⟨history, hu, hpace, hscript, -, hcalls, hend⟩ := h.exists_history
  obtain ⟨history', hu', hpace', hscript', -, hcalls', hend'⟩ := h'.exists_history
  have hmoments := hu.moments_perm hu' (hscript'.trans hscript.symm)
    (hpace'.trans hpace.symm) ht ht'
  -- both sessions leave out the same instants, among them those of their own end
  have hsame (n : Nat) : (n < t ∧ (n, Stage.terminated) ∉ stages) ↔
      (n < t ∧ (n, Stage.terminated) ∉ stages') := by
    refine and_congr_right fun hn => not_congr ?_
    have hmem := congrArg ((n, Stage.terminated) ∈ ·) hstages
    simpa [hn] using hmem
  have hown {history : History} {stages : List (Nat × Stage)}
      (hend : ∀ n, history.turns ≠ [] → history.endedAt = some n → (n, .terminated) ∈ stages) :
      (history.moments.filter fun x => x.1 < t ∧ (x.1, Stage.terminated) ∉ stages) =
        (history.moments.filter fun x => x.1 < t ∧ history.endedAt ≠ some x.1).filter
          fun x => x.1 < t ∧ (x.1, Stage.terminated) ∉ stages := by
    rw [List.filter_filter]
    refine List.filter_congr fun x hx => ?_
    have hturns : history.turns ≠ [] := by
      obtain ⟨y, hy, -⟩ := List.mem_map.mp hx
      exact List.ne_nil_of_mem hy
    rw [← Bool.decide_and]
    refine decide_eq_decide.mpr ⟨fun hq => ⟨hq, hq.1, fun hended => ?_⟩, And.left⟩
    exact hq.2 (hend x.1 hturns hended)
  rw [hcalls, hcalls', filter_calls _ _ (fun n => decide (n < t ∧ (n, .terminated) ∉ stages)),
    filter_calls _ _ (fun n => decide (n < t ∧ (n, .terminated) ∉ stages')), hown hend, hown hend']
  simp only [hsame]
  exact (hmoments.filter _).flatMap_right _

end Plays

end Seat

end BotFleet
