import BotFleet.Session.Lifecycle
import Mathlib.Data.List.Induction

/-!
# What a lifecycle knows of its history

The state of a lifecycle and each of its reactions are read off the events and the requests to stop
that it was given before.

* `Lifecycle.Step`, `Lifecycle.take`, `Lifecycle.run`, `Lifecycle.reactions`: steps of a lifecycle,
  one after the other;
* `Lifecycle.ofHistory`, `Lifecycle.reactionTo`: the state after some steps, and the reaction to one
  more, in terms of the steps alone;
* **`Lifecycle.take_ofHistory`**: what one step does to a history;
* `Lifecycle.run_start`, `Lifecycle.reactions_append`: what all of them do;
* **`Lifecycle.history_decides`**: the law of the lifecycle.
-/

namespace BotFleet

/-- The ending that a reaction is about. -/
def Reaction.ending? : Reaction → Option Ending
  | .terminate e => some e
  | _ => none

namespace Lifecycle

/-- What a lifecycle is given: an event of the client, or a request to stop. -/
inductive Step where
  | event (e : Client.Event)
  | shutdown (detail : String)
deriving DecidableEq

namespace Step

/-- The ending that a step brings about. -/
def ending? : Step → Option Ending
  | .event (.kicked reason) => some ⟨.kicked, reason⟩
  | .event (.ended reason) => some ⟨.disconnected, reason⟩
  | .event (.failed message) => some ⟨.errored, message⟩
  | .shutdown detail => some ⟨.disconnected, detail⟩
  | .event .spawn | .event .login | .event (.chat ..) => none

/-- A step that ends the session. -/
def isTerminal (step : Step) : Bool := step.ending?.isSome

end Step

def take (l : Lifecycle) : Step → Lifecycle × Reaction
  | .event e => l.apply e
  | .shutdown detail => l.shutdown detail

/-- The lifecycle after some steps. -/
def run (l : Lifecycle) (steps : List Step) : Lifecycle :=
  steps.foldl (fun l step => (l.take step).1) l

/-- The reactions to some steps, one to each. -/
def reactions : Lifecycle → List Step → List Reaction
  | _, [] => []
  | l, step :: steps => (l.take step).2 :: reactions (l.take step).1 steps

/-! ## Histories -/

/-- Some step of a history ended the session. -/
def hasEnded (steps : List Step) : Bool := steps.any Step.isTerminal

/-- The steps before the session ended. -/
def living (steps : List Step) : List Step := steps.takeWhile (!·.isTerminal)

/-- Where a session stands after some steps. Their order does not matter. -/
def stageOf (steps : List Step) : Stage :=
  if hasEnded steps then .terminated
  else if .event .login ∈ steps then .loggedIn
  else if .event .spawn ∈ steps then .spawned
  else .connecting

/-- The lifecycle after some steps; the first terminal one is the ending. -/
def ofHistory (steps : List Step) : Lifecycle where
  stage := stageOf steps
  spawned := .event .spawn ∈ living steps
  ending := steps.findSome? Step.ending?

/-- The reaction to a step after some others. -/
def reactionTo (before : List Step) (step : Step) : Reaction :=
  if hasEnded before then .ignore
  else
    match step with
    | .event .spawn => if .event .spawn ∈ before then .ignore else .startRoutine
    | .event .login => if .event .login ∈ before then .ignore else .settleLogin
    | .event (.chat speaker text) => .noteChat speaker text
    | .event (.kicked reason) => .terminate ⟨.kicked, reason⟩
    | .event (.ended reason) => .terminate ⟨.disconnected, reason⟩
    | .event (.failed message) => .terminate ⟨.errored, message⟩
    | .shutdown detail => .terminate ⟨.disconnected, detail⟩

section Histories

variable {before : List Step}

theorem hasEnded_snoc (before : List Step) (step : Step) :
    hasEnded (before ++ [step]) = (hasEnded before || step.isTerminal) := by
  simp [hasEnded]

theorem living_of_alive (h : hasEnded before = false) (steps : List Step) :
    living (before ++ steps) = before ++ living steps := by
  refine List.takeWhile_append_of_pos fun step hstep => ?_
  simpa using List.any_eq_false.mp h step hstep

theorem living_eq_self (h : hasEnded before = false) : living before = before := by
  simpa [living] using living_of_alive h []

theorem living_of_hasEnded (h : hasEnded before = true) (steps : List Step) :
    living (before ++ steps) = living before := by
  induction before with
  | nil => cases h
  | cons step before ih =>
    by_cases hterminal : step.isTerminal = true
    · simp [living, hterminal]
    · have hbefore : hasEnded before = true := by simpa [hasEnded, hterminal] using h
      simp only [living, List.cons_append, List.takeWhile_cons, hterminal, Bool.not_false, if_true]
      exact congrArg _ (ih hbefore)

theorem isSome_ending (steps : List Step) :
    (steps.findSome? Step.ending?).isSome = hasEnded steps := by
  rw [List.isSome_findSome?]
  rfl

theorem ending_eq_none_iff (steps : List Step) :
    steps.findSome? Step.ending? = none ↔ hasEnded steps = false := by
  rw [← isSome_ending, Option.isSome_eq_false_iff, Option.isNone_iff_eq_none]

theorem stageOf_eq_terminated_iff (steps : List Step) :
    stageOf steps = .terminated ↔ hasEnded steps = true := by
  unfold stageOf
  cases hasEnded steps with
  | true => simp
  | false =>
    by_cases hlogin : Step.event .login ∈ steps
    · simp [hlogin]
    · by_cases hspawn : Step.event .spawn ∈ steps <;> simp [hlogin, hspawn]

theorem ofHistory_of_hasEnded (h : hasEnded before = true) (step : Step) :
    ofHistory (before ++ [step]) = ofHistory before := by
  have hstage : stageOf (before ++ [step]) = stageOf before := by
    rw [(stageOf_eq_terminated_iff before).mpr h, stageOf_eq_terminated_iff, hasEnded_snoc, h,
      Bool.true_or]
  have hending : (before ++ [step]).findSome? Step.ending? = before.findSome? Step.ending? := by
    cases he : before.findSome? Step.ending? with
    | none => rw [(ending_eq_none_iff before).mp he] at h; cases h
    | some e => rw [List.findSome?_append, he, Option.some_or]
  rw [ofHistory, ofHistory, hstage, hending, living_of_hasEnded h]

/-! ## One step -/

theorem take_of_terminated {l : Lifecycle} (h : l.stage = .terminated) (step : Step) :
    l.take step = (l, .ignore) := by
  cases step with
  | shutdown detail => exact if_pos h
  | event e =>
    cases e with
    | spawn | login => exact if_pos (.inl h)
    | chat speaker text => exact congrArg (l, ·) (if_pos h)
    | kicked | ended | failed => exact if_pos h

theorem reactionTo_of_hasEnded (h : hasEnded before = true) (step : Step) :
    reactionTo before step = .ignore :=
  if_pos h

theorem finish_ofHistory (h : hasEnded before = false) {step : Step} {e : Ending}
    (he : step.ending? = some e) :
    (ofHistory before).finish e = (ofHistory (before ++ [step]), .terminate e) := by
  have hstage : (ofHistory before).stage ≠ .terminated := fun hs => by
    rw [(stageOf_eq_terminated_iff before).mp hs] at h; cases h
  have hterminal : step.isTerminal = true := by rw [Step.isTerminal, he]; rfl
  have hstage' : stageOf (before ++ [step]) = .terminated := by
    rw [stageOf_eq_terminated_iff, hasEnded_snoc, hterminal, Bool.or_true]
  have hliving : living (before ++ [step]) = living before := by
    rw [living_of_alive h, living_eq_self h]
    simp [living, hterminal]
  have hending : (before ++ [step]).findSome? Step.ending? = some e := by
    rw [List.findSome?_append, (ending_eq_none_iff before).mpr h]
    simp [he]
  rw [finish, if_neg hstage]
  simp only [ofHistory, hstage', hliving, hending]

theorem ofHistory_of_alive (h : hasEnded before = false) : ofHistory before =
    { stage := if .event .login ∈ before then .loggedIn
        else if .event .spawn ∈ before then .spawned else .connecting
      spawned := .event .spawn ∈ before
      ending := none } := by
  rw [ofHistory, living_eq_self h, (ending_eq_none_iff before).mpr h]
  simp [stageOf, h]

theorem hasEnded_snoc_of_alive (h : hasEnded before = false) {step : Step}
    (hstep : step.isTerminal = false) : hasEnded (before ++ [step]) = false := by
  rw [hasEnded_snoc, h, hstep]
  rfl

theorem spawn_ofHistory (h : hasEnded before = false) : (ofHistory before).spawn =
    (ofHistory (before ++ [.event .spawn]), reactionTo before (.event .spawn)) := by
  rw [ofHistory_of_alive h, ofHistory_of_alive (hasEnded_snoc_of_alive h rfl)]
  by_cases hlogin : Step.event .login ∈ before <;> by_cases hspawn : Step.event .spawn ∈ before <;>
    simp [spawn, reactionTo, h, hlogin, hspawn]

theorem login_ofHistory (h : hasEnded before = false) : (ofHistory before).login =
    (ofHistory (before ++ [.event .login]), reactionTo before (.event .login)) := by
  rw [ofHistory_of_alive h, ofHistory_of_alive (hasEnded_snoc_of_alive h rfl)]
  by_cases hlogin : Step.event .login ∈ before <;> by_cases hspawn : Step.event .spawn ∈ before <;>
    simp [login, reactionTo, h, hlogin, hspawn]

theorem chat_ofHistory (h : hasEnded before = false) (speaker text : String) :
    (ofHistory before).apply (.chat speaker text) =
      (ofHistory (before ++ [.event (.chat speaker text)]),
        reactionTo before (.event (.chat speaker text))) := by
  rw [ofHistory_of_alive h, ofHistory_of_alive (hasEnded_snoc_of_alive h rfl)]
  by_cases hlogin : Step.event .login ∈ before <;> by_cases hspawn : Step.event .spawn ∈ before <;>
    simp [apply, reactionTo, h, hlogin, hspawn]

/-- **A step leads from a history to the history with this step.** -/
theorem take_ofHistory (before : List Step) (step : Step) :
    (ofHistory before).take step = (ofHistory (before ++ [step]), reactionTo before step) := by
  cases h : hasEnded before with
  | true =>
    have hstage : (ofHistory before).stage = .terminated :=
      (stageOf_eq_terminated_iff before).mpr h
    rw [take_of_terminated hstage, ofHistory_of_hasEnded h, reactionTo_of_hasEnded h]
  | false =>
    have hfinish {e : Ending} (he : step.ending? = some e) := finish_ofHistory h he
    have hreaction : reactionTo before step = _ := if_neg (by rw [h]; exact Bool.false_ne_true)
    cases step with
    | shutdown detail => rw [hreaction]; exact hfinish rfl
    | event e =>
      cases e with
      | spawn => exact spawn_ofHistory h
      | login => exact login_ofHistory h
      | chat speaker text => exact chat_ofHistory h speaker text
      | kicked | ended | failed => rw [hreaction]; exact hfinish rfl

end Histories

/-! ## All of them -/

theorem run_ofHistory (before steps : List Step) :
    (ofHistory before).run steps = ofHistory (before ++ steps) := by
  induction steps generalizing before with
  | nil => rw [List.append_nil]; rfl
  | cons step steps ih =>
    have hcons : (ofHistory before).run (step :: steps) =
        ((ofHistory before).take step).1.run steps := rfl
    rw [hcons, take_ofHistory, ih, List.append_assoc]
    rfl

/-- **A lifecycle is its history.** -/
theorem run_start (steps : List Step) : start.run steps = ofHistory steps :=
  run_ofHistory [] steps

theorem reactions_append (l : Lifecycle) (steps steps' : List Step) :
    l.reactions (steps ++ steps') = l.reactions steps ++ (l.run steps).reactions steps' := by
  induction steps generalizing l with
  | nil => rfl
  | cons step steps ih => exact congrArg (_ :: ·) (ih _)

theorem length_reactions (l : Lifecycle) (steps : List Step) :
    (l.reactions steps).length = steps.length := by
  induction steps generalizing l with
  | nil => rfl
  | cons step steps ih => exact congrArg (· + 1) (ih _)

theorem reactions_snoc (before : List Step) (step : Step) :
    start.reactions (before ++ [step]) = start.reactions before ++ [reactionTo before step] := by
  rw [reactions_append, run_start, reactions, take_ofHistory, reactions]

/-! ## What happens once -/

theorem reactionTo_eq_startRoutine_iff (before : List Step) (step : Step) :
    reactionTo before step = .startRoutine ↔
      hasEnded before = false ∧ step = .event .spawn ∧ .event .spawn ∉ before := by
  cases h : hasEnded before with
  | true => simp [reactionTo_of_hasEnded h]
  | false =>
    cases step with
    | shutdown detail => simp [reactionTo, h]
    | event e =>
      cases e with
      | login => by_cases hlogin : Step.event .login ∈ before <;> simp [reactionTo, h, hlogin]
      | _ => simp [reactionTo, h]

theorem reactionTo_eq_settleLogin_iff (before : List Step) (step : Step) :
    reactionTo before step = .settleLogin ↔
      hasEnded before = false ∧ step = .event .login ∧ .event .login ∉ before := by
  cases h : hasEnded before with
  | true => simp [reactionTo_of_hasEnded h]
  | false =>
    cases step with
    | shutdown detail => simp [reactionTo, h]
    | event e =>
      cases e with
      | spawn => by_cases hspawn : Step.event .spawn ∈ before <;> simp [reactionTo, h, hspawn]
      | _ => simp [reactionTo, h]

/-- A reaction to the first of some steps happens once at most, and only before the end. -/
theorem count_reactions {r : Reaction} {first : Step} (hfirst : first.isTerminal = false)
    (hr : ∀ before step, reactionTo before step = r ↔
      hasEnded before = false ∧ step = first ∧ first ∉ before) (steps : List Step) :
    (start.reactions steps).count r = if first ∈ living steps then 1 else 0 := by
  induction steps using List.reverseRecOn with
  | nil => rfl
  | append_singleton before step ih =>
    rw [reactions_snoc, List.count_append, ih, List.count_singleton]
    simp only [beq_iff_eq, hr]
    cases h : hasEnded before with
    | true => simp [living_of_hasEnded h]
    | false =>
      rw [living_of_alive h, living_eq_self h]
      by_cases hmem : first ∈ before
      · simp [hmem]
      · by_cases hstep : step = first
        · simp [hmem, hstep, living, hfirst]
        · have hother : first ∉ living [step] := fun hin =>
            hstep (List.mem_singleton.mp ((List.takeWhile_sublist _).mem hin)).symm
          simp [hmem, hstep, hother]

theorem ending_reactionTo (before : List Step) (step : Step) :
    (reactionTo before step).ending? = if hasEnded before then none else step.ending? := by
  cases h : hasEnded before with
  | true => rw [reactionTo_of_hasEnded h]; rfl
  | false =>
    cases step with
    | shutdown detail => simp [reactionTo, h, Reaction.ending?, Step.ending?]
    | event e =>
      cases e <;> simp only [reactionTo, h, Bool.false_eq_true, if_false] <;>
        first | rfl | (split <;> rfl)

theorem endings_reactions (steps : List Step) :
    (start.reactions steps).filterMap Reaction.ending? =
      (steps.findSome? Step.ending?).toList := by
  induction steps using List.reverseRecOn with
  | nil => rfl
  | append_singleton before step ih =>
    rw [reactions_snoc, List.filterMap_append, ih, List.findSome?_append]
    cases he : before.findSome? Step.ending? with
    | none =>
      have halive := (ending_eq_none_iff before).mp he
      cases hs : step.ending? <;> simp [ending_reactionTo, halive, hs]
    | some e =>
      have hended : hasEnded before = true := by rw [← isSome_ending, he]; rfl
      simp [ending_reactionTo, hended]

/-! ## The law of the lifecycle -/

/-- What is ignored or only noted leaves the lifecycle as it is. -/
theorem take_of_passive (l : Lifecycle) (step : Step)
    (h : (l.take step).2 = .ignore ∨ ∃ speaker text, (l.take step).2 = .noteChat speaker text) :
    (l.take step).1 = l := by
  have hfinish (e : Ending) (h : (l.finish e).2 = .ignore ∨
      ∃ speaker text, (l.finish e).2 = .noteChat speaker text) : (l.finish e).1 = l := by
    unfold finish at h ⊢
    split <;> simp_all
  cases step with
  | shutdown detail => exact hfinish _ h
  | event e =>
    cases e with
    | chat speaker text => rfl
    | kicked reason => exact hfinish _ h
    | ended reason => exact hfinish _ h
    | failed message => exact hfinish _ h
    | spawn =>
      simp only [take, apply, spawn] at h ⊢
      split <;> simp_all
    | login =>
      simp only [take, apply, login] at h ⊢
      split <;> simp_all

/-- **The history of a session decides its lifecycle**, whatever comes and in whatever order:

* it is terminated if some step was terminal, else logged in if there was a login, else spawned if
  there was a spawn, else connecting;
* it has an ending exactly if it is terminated, which is that of the first terminal step;
* it has spawned exactly if there was a spawn before the first terminal step;
* each step has one reaction, which depends on the steps before it: the routine is started by the
  first spawn, the login is settled by the first login, a chat line is noted, a terminal step ends
  the session, unless it has ended before; everything else is ignored;
* the routine is started once or never, and so is the login settled and the session ended;
* what is ignored or noted changes nothing. -/
theorem history_decides (steps : List Step) :
    let l := start.run steps
    let rs := start.reactions steps
    l.stage = stageOf steps ∧
      l.ending = steps.findSome? Step.ending? ∧
      (l.ending.isSome = true ↔ l.stage = .terminated) ∧
      (l.spawned = true ↔ .event .spawn ∈ living steps) ∧
      rs.length = steps.length ∧
      (∀ before step after, steps = before ++ step :: after →
        rs[before.length]? = some (reactionTo before step)) ∧
      rs.count .startRoutine = l.spawned.toNat ∧
      rs.count .settleLogin = (if .event .login ∈ living steps then 1 else 0) ∧
      rs.filterMap Reaction.ending? = l.ending.toList ∧
      ∀ before step after, steps = before ++ step :: after →
        (reactionTo before step = .ignore ∨
          ∃ speaker text, reactionTo before step = .noteChat speaker text) →
        start.run (before ++ [step]) = start.run before := by
  intro l rs
  have hl : l = ofHistory steps := run_start steps
  refine ⟨by rw [hl]; rfl, by rw [hl]; rfl, ?_, ?_, length_reactions start steps, ?_, ?_,
    count_reactions rfl reactionTo_eq_settleLogin_iff steps, ?_, ?_⟩
  · rw [hl]
    show (steps.findSome? Step.ending?).isSome = true ↔ stageOf steps = .terminated
    rw [stageOf_eq_terminated_iff, isSome_ending]
  · rw [hl]
    exact decide_eq_true_iff
  · rintro before step after rfl
    have hlength := length_reactions start before
    have hrs : rs = start.reactions before ++ _ := reactions_append start before (step :: after)
    rw [hrs, List.getElem?_append_right (Nat.le_of_eq hlength), hlength, Nat.sub_self, run_start,
      reactions, take_ofHistory]
    rfl
  · rw [hl, count_reactions rfl reactionTo_eq_startRoutine_iff]
    show (if Step.event .spawn ∈ living steps then 1 else 0) =
      (decide (Step.event .spawn ∈ living steps)).toNat
    split <;> simp_all
  · rw [hl]
    exact endings_reactions steps
  · rintro before step after rfl h
    have htake := take_ofHistory before step
    have hunchanged := take_of_passive (ofHistory before) step (by rw [htake]; exact h)
    rw [htake] at hunchanged
    rw [run_start, run_start]
    exact hunchanged

end Lifecycle

end BotFleet
