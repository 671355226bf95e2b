import BotFleet.Proofs.Seat.Timely

/-!
# The stages of a session

What others see of a session is its stage, which changes with what the session sees.

* `Stage.after`, `Stage.changes`: the stage after an occurrence, and the changes of it that some
  occurrences bring about;
* `Seat.stages`: the changes of stage that others see during a run, and when;
* `Session.Worked.published`: a step of the work publishes the stage after what it sees;
* **`Seat.stages_eq_changes`**: others see those changes that what the session has seen brings about;
* `Stage.filter_changes`, `Stage.mem_changes`: the changes before an instant, and the last one.
-/

namespace BotFleet

theorem filter_eq_nil_of_late {x : Nat × Occurrence} {xs : List (Nat × Occurrence)} {t : Nat}
    (h : (x :: xs).Pairwise fun x y => x.1 ≤ y.1) (hx : ¬x.1 < t) :
    (x :: xs).filter (·.1 < t) = [] := by
  rw [List.filter_eq_nil_iff]
  intro y hy
  have hle : x.1 ≤ y.1 :=
    (List.mem_cons.mp hy).elim (fun hy => hy ▸ Nat.le_refl _) ((List.pairwise_cons.mp h).1 y)
  simp only [decide_eq_true_eq]
  omega

namespace Stage

/-- The stage after an occurrence. Nobody sees that connecting has crashed. -/
def after (stage : Stage) : Occurrence → Stage
  | .stop | .opening (.failed _) | .report .closed | .report (.event (.kicked _))
  | .report (.event (.ended _)) | .report (.event (.failed _)) => .terminated
  | .report (.event .login) => .loggedIn
  | .report (.event .spawn) => if stage = .connecting then .spawned else stage
  | .opening .opened | .opening (.crashed _) | .report (.event (.chat ..)) => stage

/-- The stage at an instant, if it is another one than before. -/
def change (now : Nat) (before after : Stage) : List (Nat × Stage) :=
  if after = before then [] else [(now, after)]

/-- The changes of stage that some occurrences bring about. -/
def changes : Stage → List (Nat × Occurrence) → List (Nat × Stage)
  | _, [] => []
  | stage, x :: rest => change x.1 stage (stage.after x.2) ++ changes (stage.after x.2) rest

theorem change_self (now : Nat) (stage : Stage) : change now stage stage = [] := if_pos rfl

theorem changes_append (stage : Stage) (xs ys : List (Nat × Occurrence)) :
    changes stage (xs ++ ys) =
      changes stage xs ++ changes (xs.foldl (fun stage x => stage.after x.2) stage) ys := by
  induction xs generalizing stage with
  | nil => rfl
  | cons x xs ih => rw [List.cons_append, changes, changes, ih, List.append_assoc]; rfl

theorem exists_of_mem_changes {stage : Stage} {xs : List (Nat × Occurrence)} {c : Nat × Stage}
    (h : c ∈ changes stage xs) : ∃ x ∈ xs, x.1 = c.1 := by
  induction xs generalizing stage with
  | nil => cases h
  | cons x xs ih =>
    rcases List.mem_append.mp h with h | h
    · refine ⟨x, List.mem_cons_self, ?_⟩
      unfold change at h
      split at h
      · cases h
      · rw [List.mem_singleton.mp h]
    · obtain ⟨y, hy, hc⟩ := ih h
      exact ⟨y, List.mem_cons_of_mem x hy, hc⟩

theorem filter_changes {xs : List (Nat × Occurrence)} (h : xs.Pairwise fun x y => x.1 ≤ y.1)
    (stage : Stage) (t : Nat) :
    (changes stage xs).filter (·.1 < t) = changes stage (xs.filter (·.1 < t)) := by
  induction xs generalizing stage with
  | nil => rfl
  | cons x xs ih =>
    have hxs := (List.pairwise_cons.mp h).2
    by_cases hlt : x.1 < t
    · have hchange : (change x.1 stage (stage.after x.2)).filter (·.1 < t) =
          change x.1 stage (stage.after x.2) := by
        unfold change
        split <;> simp [hlt]
      rw [changes, List.filter_append, hchange, ih hxs, List.filter_cons_of_pos (by simpa using hlt),
        changes]
    · have hlate := filter_eq_nil_of_late h hlt
      rw [hlate, changes, List.filter_eq_nil_iff]
      intro c hc
      obtain ⟨y, hy, hyc⟩ := exists_of_mem_changes hc
      simpa [hyc] using List.filter_eq_nil_iff.mp hlate y hy

theorem after_ne_terminated {stage : Stage} (h : stage ≠ .terminated) {o : Occurrence}
    (ho : o.isFinal = false) : stage.after o ≠ .terminated := by
  cases o with
  | stop => cases ho
  | opening o =>
    cases o with
    | opened => exact h
    | failed | crashed => cases ho
  | report r =>
    cases r with
    | closed => cases ho
    | event e =>
      cases e with
      | spawn =>
        rw [after]
        split
        · simp
        · exact h
      | login => simp [after]
      | chat => exact h
      | kicked | ended | failed => cases ho

theorem foldl_ne_terminated {stage : Stage} (h : stage ≠ .terminated)
    {xs : List (Nat × Occurrence)} (hxs : ∀ x ∈ xs, x.2.isFinal = false) :
    xs.foldl (fun stage x => stage.after x.2) stage ≠ .terminated :=
  List.foldlRecOn (motive := fun stage : Stage => stage ≠ .terminated) xs _ h
    fun _ hstage x hx => after_ne_terminated hstage (hxs x hx)

theorem mem_changes {stage : Stage} (h : stage ≠ .terminated) {before : List (Nat × Occurrence)}
    (hbefore : ∀ x ∈ before, x.2.isFinal = false) {x : Nat × Occurrence}
    (hend : (before ++ [x]).foldl (fun stage x => stage.after x.2) stage = .terminated) :
    (x.1, .terminated) ∈ changes stage (before ++ [x]) := by
  have hstage := foldl_ne_terminated h hbefore
  rw [List.foldl_append] at hend
  rw [changes_append, changes, changes, List.append_nil]
  refine List.mem_append_right _ ?_
  have hlast : (before.foldl (fun stage x => stage.after x.2) stage).after x.2 = .terminated := hend
  rw [hlast, change, if_neg (Ne.symm hstage)]
  exact List.mem_singleton_self _

end Stage

/-! ## What others see -/

namespace Session

variable {s s' : Session}

/-- A spawn that has been seen shows in the stage. -/
def ShowsSpawn (s : Session) : Prop := s.lifecycle.spawned = true → s.lifecycle.stage ≠ .connecting

theorem showsSpawn_start (settings : SessionSettings) (pace : Option Pace) (script : Script) :
    (start settings pace script).ShowsSpawn := by
  simp [ShowsSpawn, start, Lifecycle.start]

theorem Worked.showsSpawn {o? : Option Occurrence} {es : List Effect} (hw : Worked s o? s' es)
    (h : s.ShowsSpawn) : s'.ShowsSpawn := by
  cases hw with
  | spawned rest lines hp hs hi hsp =>
    intro _
    rw [Session.spawned, Lifecycle.spawn]
    by_cases hstage : s.lifecycle.stage = .connecting <;> split <;> simp_all
  | loggedIn | ended => simp [ShowsSpawn, Session.loggedIn, Session.ended]
  | _ => exact h

/-- **A step of the work publishes the stage after what it sees.** -/
theorem Worked.published {o? : Option Occurrence} {es : List Effect} (hw : Worked s o? s' es)
    (hc : s.Coherent) (hs : s.ShowsSpawn) :
    s'.published = (o?.map s.published.after).getD s.published := by
  cases hw with
  | idle | begun | stoppedEarly | stopped | refused | crashed | opened | loggedIn => rfl
  | noted e rest line hp _ _ hr hlogin _ hspawn =>
    have ha := hc.running hp
    show s.lifecycle.stage = s.published.after _
    rw [ha.published]
    cases e with
    | spawn => rw [Stage.after, if_neg (hs (hspawn rfl))]
    | login => exact hlogin rfl
    | chat => rfl
    | kicked | ended | failed => cases hr
  | spawned rest lines hp _ _ hsp =>
    have ha := hc.running hp
    have hspawn : (s.spawned rest).published = s.lifecycle.spawn.1.stage := rfl
    rw [hspawn, ha.published, Lifecycle.spawn, if_neg (by simp [ha.stage, hsp])]
    rfl
  | ended o inbox e line line' hp ho hv =>
    show Stage.terminated = s.published.after o
    cases o with
    | stop => rfl
    | opening o =>
      rcases ho with ⟨h, -⟩ | ⟨-, _, _, h, -⟩ <;> cases h
    | report r =>
      cases r with
      | closed => rfl
      | event e => cases e <;> first | rfl | cases hv

end Session

namespace Seat

/-- The changes of stage that others see during a run, and when. -/
def stages : Seat → List Move → List (Nat × Stage)
  | _, [] => []
  | seat, m :: ms => Stage.change seat.session.clock seat.session.published
      (seat.move m).session.published ++ stages (seat.move m) ms

theorem stages_append (seat : Seat) (ms ms' : List Move) :
    seat.stages (ms ++ ms') = seat.stages ms ++ (seat.run ms).stages ms' := by
  induction ms generalizing seat with
  | nil => rfl
  | cons m ms ih => rw [List.cons_append, stages, stages, ih, List.append_assoc]; rfl

theorem showsSpawn_move {seat : Seat} (h : seat.session.Coherent) (hs : seat.session.ShowsSpawn)
    (m : Move) : (seat.move m).session.ShowsSpawn := by
  by_cases hm : ∃ draw, m = .act draw .work
  · obtain ⟨draw, rfl⟩ := hm
    exact (Session.step_work h draw).showsSpawn hs
  · have halike := seat.alike_of_not_work (not_exists.mp hm)
    unfold Session.ShowsSpawn
    rw [halike.lifecycle]
    exact hs

theorem published_move {seat : Seat} (h : seat.session.Coherent) (hs : seat.session.ShowsSpawn)
    (m : Move) : ∃ o? : Option Occurrence, seat.sees m = o?.toList ∧
      (seat.move m).session.published =
        (o?.map seat.session.published.after).getD seat.session.published := by
  by_cases hm : ∃ draw, m = .act draw .work
  · obtain ⟨draw, rfl⟩ := hm
    exact ⟨_, rfl, (Session.step_work h draw).published h hs⟩
  · have hm : ∀ draw, m ≠ .act draw .work := not_exists.mp hm
    exact ⟨none, seat.sees_eq_nil hm, (seat.alike_of_not_work hm).published⟩

/-- **Others see those changes of stage that what the session has seen brings about.** -/
theorem stages_eq_changes {seat : Seat} (h : seat.session.Coherent) (hs : seat.session.ShowsSpawn)
    (ms : List Move) :
    seat.stages ms = Stage.changes seat.session.published (seat.history ms).sightings ∧
      (seat.run ms).session.published = (seat.history ms).sightings.foldl
        (fun stage x => stage.after x.2) seat.session.published := by
  induction ms generalizing seat with
  | nil => exact ⟨rfl, rfl⟩
  | cons m ms ih =>
    obtain ⟨hstages, hpublished⟩ := ih (coherent_move seat m h) (showsSpawn_move h hs m)
    obtain ⟨o?, hsees, hmove⟩ := published_move h hs m
    rw [stages, history, History.sightings_append, sightings_recent, hsees, Stage.changes_append,
      List.foldl_append, run_cons, hstages, hpublished, hmove]
    cases o? with
    | none => exact ⟨congrArg (· ++ _) (Stage.change_self ..), rfl⟩
    | some o => exact ⟨congrArg (· ++ _) (List.append_nil _).symm, rfl⟩

end Seat

end BotFleet
