import BotFleet.Proofs.Seat.Cancel
import BotFleet.Proofs.Seat.Ended
import BotFleet.Proofs.Seat.Stages

/-!
# What a session publishes

Others see the stages of a session in their order, each of them once.

* `Stage.rank`: how far a session has come at a stage;
* `Seat.publishes`: the stages that others see during a run, from the first to the last;
* **`Seat.rank_le_move`**: no move takes a session back;
* `Seat.published_of_failure`, `Seat.published_of_success`: what is published once a login has an
  answer;
* **`Seat.stages_ascend`**: the law of the published stages.
-/

namespace BotFleet

/-- How far a session has come at a stage. -/
def Stage.rank : Stage → Nat
  | connecting => 0
  | spawned => 1
  | loggedIn => 2
  | terminated => 3

theorem Stage.rank_injective {a b : Stage} (h : a.rank = b.rank) : a = b := by
  cases a <;> cases b <;> first | rfl | cases h

theorem Stage.rank_le_after {stage : Stage} (h : stage ≠ .terminated) (o : Occurrence) :
    stage.rank ≤ (stage.after o).rank := by
  unfold Stage.after
  split <;> try split
  all_goals cases stage <;> simp_all [Stage.rank]

namespace Seat

/-- The stages that others see during a run, from the first to the last. -/
def publishes (seat : Seat) (ms : List Move) : List Stage :=
  seat.session.published :: (seat.stages ms).map Prod.snd

theorem publishes_cons (seat : Seat) (m : Move) (ms : List Move) :
    (seat.move m).session.published = seat.session.published ∧
        seat.publishes (m :: ms) = (seat.move m).publishes ms ∨
      (seat.move m).session.published ≠ seat.session.published ∧
        seat.publishes (m :: ms) = seat.session.published :: (seat.move m).publishes ms := by
  unfold publishes
  rw [stages, Stage.change]
  split
  · rename_i h
    exact .inl ⟨h, by rw [h, List.nil_append]⟩
  · rename_i h
    exact .inr ⟨h, rfl⟩

/-- **No move takes a session back.** -/
theorem rank_le_move {seat : Seat} (h : seat.session.Coherent) (hs : seat.session.ShowsSpawn)
    (m : Move) : seat.session.published.rank ≤ (seat.move m).session.published.rank := by
  obtain ⟨o?, hsees, hpublished⟩ := published_move h hs m
  rw [hpublished]
  cases o? with
  | none => exact Nat.le_refl _
  | some o =>
    refine Stage.rank_le_after (fun hterminated => ?_) o
    -- a session that is terminated sees nothing
    have hp := h.isTerminated_iff.mp (decide_eq_true hterminated)
    have hnothing := (isOver_move (by rw [hp]; rfl) m).2
    rw [hsees] at hnothing
    cases hnothing

/-- **The published stages ascend.** -/
theorem pairwise_publishes {seat : Seat} (h : seat.session.Coherent) (hs : seat.session.ShowsSpawn)
    (ms : List Move) : (seat.publishes ms).Pairwise (·.rank < ·.rank) := by
  induction ms generalizing seat with
  | nil => exact List.pairwise_singleton ..
  | cons m ms ih =>
    have hascends := ih (coherent_move seat m h) (showsSpawn_move h hs m)
    rcases publishes_cons seat m ms with ⟨-, hsame⟩ | ⟨hne, hnew⟩
    · rw [hsame]
      exact hascends
    · have hlt : seat.session.published.rank < (seat.move m).session.published.rank :=
        Nat.lt_of_le_of_ne (rank_le_move h hs m) fun heq => hne (Stage.rank_injective heq).symm
      rw [hnew]
      refine List.pairwise_cons.mpr ⟨fun stage hstage => ?_, hascends⟩
      rcases List.mem_cons.mp hstage with rfl | hlater
      · exact hlt
      · exact Nat.lt_trans hlt ((List.pairwise_cons.mp hascends).1 stage hlater)

theorem getLast_publishes (seat : Seat) (ms : List Move) :
    (seat.publishes ms).getLast? = some (seat.run ms).session.published := by
  induction ms generalizing seat with
  | nil => rfl
  | cons m ms ih =>
    rcases publishes_cons seat m ms with ⟨-, hsame⟩ | ⟨-, hnew⟩
    · rw [hsame]
      exact ih (seat.move m)
    · rw [hnew, List.getLast?_cons, ih (seat.move m)]
      rfl

/-! ## What is published when a login has an answer -/

section Follows

variable {seat : Seat} {seen : List Occurrence} (h : seat.Follows seen)
include h

theorem Follows.published_of_isOver (hcrash : ∀ message, seat.session.phase ≠ .crashed message)
    (hover : seat.session.phase.isOver = true) :
    seat.session.phase = .finished ∧ seat.session.published = .terminated := by
  cases hp : seat.session.phase with
  | finished => exact ⟨rfl, (h.coherent.finished hp).published⟩
  | crashed message => exact absurd hp (hcrash message)
  | _ => rw [hp] at hover; cases hover

theorem Follows.published_of_failure (hcrash : ∀ message, seat.session.phase ≠ .crashed message)
    {cause : LoginFailure} (ha : seat.answer = some (.failure cause)) :
    seat.session.published = .terminated := by
  rw [h.answer_eq] at ha
  obtain ⟨o, ho, hv⟩ := List.exists_of_findSome?_eq_some ha
  exact (h.published_of_isOver hcrash (h.isOver ho (Occurrence.isFinal_of_failure hv))).2

theorem Follows.published_of_success (ha : seat.answer = some .success) :
    seat.session.published = .loggedIn ∨ seat.session.published = .terminated := by
  rw [h.answer_eq] at ha
  have hsettled := (ha ▸ h.delivery).settled_of_success
  have hopen (hu : seat.session.Untouched) : False := by
    rw [hu.unsettled] at hsettled
    cases hsettled
  cases hp : seat.session.phase with
  | fresh => exact (hopen (h.coherent.fresh hp)).elim
  | connecting due => exact (hopen (h.coherent.connecting hp).1).elim
  | running =>
    have hlive := h.coherent.running hp
    exact .inl (hlive.published.trans (hlive.settled.mp hsettled))
  | finished => exact .inr (h.coherent.finished hp).published
  | crashed message => exact (hopen (h.coherent.crashed hp)).elim

end Follows

/-! ## The law of the published stages -/

/-- **The stages of a session ascend.** Whatever happens to a session whose connecting does not
crash, in any order and at any time:

* others see it connecting at first, and then each stage further on than the one before; the last
  stage that they have seen is the one that is published;
* while it waits for its client's next report, that is the stage of its lifecycle;
* a session that has been seen terminated stays so;
* once its login has failed, it has been seen terminated, and once its login has succeeded, logged
  in or terminated;
* when its work is over, it has been seen terminated. -/
theorem stages_ascend (start : Nat) (settings : SessionSettings) (pace : Option Pace)
    (script : Script) (hopening : ∀ delay message, script.opening ≠ some (delay, .crashed message))
    (ms : List Move) :
    let first := fresh start settings pace script
    let seat := first.run ms
    ((first.publishes ms).head? = some .connecting ∧
        (first.publishes ms).Pairwise (·.rank < ·.rank) ∧
        (first.publishes ms).getLast? = some seat.session.published) ∧
      (seat.session.phase = .running → seat.session.published = seat.session.lifecycle.stage) ∧
      (seat.session.published = .terminated →
        ∀ ms', (seat.run ms').session.published = .terminated) ∧
      (∀ cause, seat.answer = some (.failure cause) → seat.session.published = .terminated) ∧
      (seat.answer = some .success →
        seat.session.published = .loggedIn ∨ seat.session.published = .terminated) ∧
      (seat.session.phase.isOver = true →
        seat.session.phase = .finished ∧ seat.session.published = .terminated) := by
  intro first seat
  have hreckons : seat.Reckons _ := (reckons_fresh start settings pace script).run ms
  have hrun := hreckons.follows
  have hfirst := coherent_fresh start settings pace script
  have hshows : first.session.ShowsSpawn := Session.showsSpawn_start settings pace script
  have hcrash (message : String) : seat.session.phase ≠ .crashed message := by
    intro hp
    obtain ⟨delay, hdelay⟩ := hreckons.crashed message hp
    have hscript : seat.session.script = script := script_run hfirst ms
    exact hopening delay message (hscript ▸ hdelay)
  refine ⟨⟨rfl, pairwise_publishes hfirst hshows ms, getLast_publishes first ms⟩,
    fun hp => (hrun.coherent.running hp).published, fun hterminated ms' => ?_,
    fun _ ha => hrun.published_of_failure hcrash ha, hrun.published_of_success,
    hrun.published_of_isOver hcrash⟩
  -- a session that is over does not go on, so that its phase still says so
  have hp := hrun.coherent.isTerminated_iff.mp (decide_eq_true hterminated)
  have hstays : (seat.run ms').session.phase = .finished :=
    run_induction (P := fun seat => seat.session.phase = .finished) hp
      (fun _ m h => ((isOver_move (by rw [h]; rfl) m).1).trans h) ms'
  exact ((coherent_run hrun.coherent ms').finished hstays).published

/-- A bot that logs in before it spawns, and is kicked later. -/
theorem stages_ascend_unspawned :
    let script : Script := { events := [(0, .login), (0, .spawn), (5, .kicked "afk")] }
    let first := fresh 0 ⟨"Bot1", ⟨"localhost", 25565, "1.21.4"⟩⟩ none script
    let ms := [.act .steady .work, .act .steady .work, .act .steady .report, .act .steady .report,
      .act .steady .work, .act .steady .work, .pass 5, .act .steady .report, .act .steady .work]
    (∀ delay message, script.opening ≠ some (delay, .crashed message)) ∧
      first.publishes ms = [.connecting, .loggedIn, .terminated] ∧
      (first.publishes ms).Pairwise (·.rank < ·.rank) := by
  intro script first ms
  have hopening (delay : Nat) (message : String) :
      script.opening ≠ some (delay, .crashed message) := by simp [script]
  obtain ⟨⟨-, hascends, -⟩, -⟩ :=
    stages_ascend 0 ⟨"Bot1", ⟨"localhost", 25565, "1.21.4"⟩⟩ none script hopening ms
  exact ⟨hopening, by decide, hascends⟩

end Seat

end BotFleet
