import Mathlib.Data.List.Induction
import BotFleet.Session.Settlement

/-!
# What a settlement knows of its history

The state of a settlement and each of its answers are read off what was done on its two sides
before.

* `Settlement.Act`, `Settlement.Reply`, `Settlement.act`: what is done, and what comes of it;
* `Settlement.run`, `Settlement.replies`: all of it, one after the other;
* `Settlement.given?`, `Settlement.delivered`, `Settlement.ofHistory`, `Settlement.replyTo`: the
  verdict that counts, whether it was handed over, the state and the reply to one more act, in terms
  of the acts alone;
* **`Settlement.act_ofHistory`**: what one act does to a history;
* `Settlement.count_first`, **`Settlement.verdicts_replies`**: what happens once;
* **`Settlement.delivers_once`**: the law of the settlement.
-/

namespace BotFleet.Settlement

/-- What is done on the two sides of a settlement. -/
inductive Act where
  | settle (v : Verdict)
  | receive
  | dropReceiver
deriving DecidableEq

/-- What comes of an act: whether a verdict was the first, what the receiver got, or whether it was
still there. -/
inductive Reply where
  | settled (first : Bool)
  | received (a : Answer)
  | dropped (there : Bool)
deriving DecidableEq

/-- The verdict that an act gives. -/
def Act.verdict? : Act → Option Verdict
  | .settle v => some v
  | .receive | .dropReceiver => none

/-- The verdict that a reply hands over. -/
def Reply.verdict? : Reply → Option Verdict
  | .received (.verdict v) => some v
  | _ => none

def act (s : Settlement) : Act → Settlement × Reply
  | .settle v => (s.settle v).map id .settled
  | .receive => s.receive.map id .received
  | .dropReceiver => s.dropReceiver.map id .dropped

/-- The settlement after some acts. -/
def run (s : Settlement) (acts : List Act) : Settlement := acts.foldl (fun s a => (s.act a).1) s

/-- The replies to some acts, one to each. -/
def replies : Settlement → List Act → List Reply
  | _, [] => []
  | s, a :: acts => (s.act a).2 :: replies (s.act a).1 acts

/-! ## Histories -/

/-- The first verdict that was given. -/
def given? (acts : List Act) : Option Verdict := acts.findSome? Act.verdict?

/-- The receiver has not gone away. -/
def listens (acts : List Act) : Bool := .dropReceiver ∉ acts

/-- What was done while the receiver was there. -/
def heard (acts : List Act) : List Act := acts.takeWhile (· ≠ .dropReceiver)

/-- What was done since a verdict was given. -/
def since (acts : List Act) : List Act := acts.dropWhile (·.verdict?.isNone)

/-- The verdict was handed over: the receiver asked for it after it was given, and before it went
away. -/
def delivered (acts : List Act) : Bool := .receive ∈ since (heard acts)

/-- The settlement after some acts. -/
def ofHistory (acts : List Act) : Settlement where
  settled := (given? acts).isSome
  slot :=
    match given? acts with
    | none => .vacant
    | some v => if listens acts && !delivered acts then .holding v else .spent
  listening := listens acts

/-- The answer to a receiver after some acts. -/
def answerAfter (acts : List Act) : Answer :=
  if listens acts then
    match given? acts with
    | none => .empty
    | some v => if delivered acts then .closed else .verdict v
  else .dropped

/-- The reply to an act after some others. -/
def replyTo (before : List Act) : Act → Reply
  | .settle _ => .settled (given? before).isNone
  | .receive => .received (answerAfter before)
  | .dropReceiver => .dropped (listens before)

section Histories

variable {before : List Act}

@[simp] theorem given?_snoc (before : List Act) (a : Act) :
    given? (before ++ [a]) = (given? before).or a.verdict? := by
  simp [given?, List.findSome?_append]

@[simp] theorem listens_snoc (before : List Act) (a : Act) :
    listens (before ++ [a]) = (listens before && decide (a ≠ .dropReceiver)) := by
  simp [listens, eq_comm]

theorem heard_of_listens (h : listens before = true) (acts : List Act) :
    heard (before ++ acts) = before ++ heard acts := by
  refine List.takeWhile_append_of_pos fun a ha => decide_eq_true fun hdrop => ?_
  exact of_decide_eq_true h (hdrop ▸ ha)

theorem heard_eq_self (h : listens before = true) : heard before = before := by
  simpa [heard] using heard_of_listens h []

theorem heard_of_dropped (h : listens before = false) (acts : List Act) :
    heard (before ++ acts) = heard before := by
  induction before with
  | nil => cases h
  | cons a before ih =>
    by_cases hdrop : a = .dropReceiver
    · simp [heard, hdrop]
    · have hbefore : listens before = false := by simpa [listens, Ne.symm hdrop] using h
      simp only [heard, List.cons_append, List.takeWhile_cons, ne_eq, hdrop, not_false_eq_true,
        decide_true, if_true]
      exact congrArg _ (ih hbefore)

theorem receive_mem_since_snoc (before : List Act) (a : Act) :
    .receive ∈ since (before ++ [a]) ↔
      .receive ∈ since before ∨ (given? before).isSome ∧ a = .receive := by
  induction before with
  | nil => cases a <;> simp [since, given?, Act.verdict?]
  | cons b before ih =>
    cases hb : b.verdict? with
    | none => simpa [since, given?, hb] using ih
    | some v => simp [since, given?, hb, eq_comm, or_assoc]

@[simp] theorem delivered_snoc (before : List Act) (a : Act) :
    delivered (before ++ [a]) =
      (delivered before ||
        (listens before && (given? before).isSome && decide (a = .receive))) := by
  cases h : listens before with
  | false => simp [delivered, heard_of_dropped h]
  | true =>
    by_cases hdrop : a = .dropReceiver
    · have hheard : heard [a] = [] := by simp [heard, hdrop]
      rw [delivered, delivered, heard_of_listens h, heard_eq_self h, hheard, List.append_nil]
      simp [hdrop]
    · have hheard : heard [a] = [a] := by simp [heard, hdrop]
      rw [delivered, delivered, heard_of_listens h, heard_eq_self h, hheard, Bool.eq_iff_iff]
      simpa using receive_mem_since_snoc before a

theorem isSome_given?_of_delivered (h : delivered before = true) :
    (given? before).isSome = true := by
  induction before using List.reverseRecOn with
  | nil => cases h
  | append_singleton before a ih =>
    rw [delivered_snoc, Bool.or_eq_true] at h
    have hgiven : (given? before).isSome = true := by
      obtain hbefore | hnow := h
      · exact ih hbefore
      · simp only [Bool.and_eq_true] at hnow
        exact hnow.1.2
    rw [given?_snoc, Option.isSome_or, hgiven, Bool.true_or]

/-! ## One act -/

theorem settle_ofHistory (before : List Act) (v : Verdict) :
    (ofHistory before).settle v = (ofHistory (before ++ [.settle v]), (given? before).isNone) := by
  cases hgiven : given? before with
  | none =>
    have hnot : delivered before = false := Bool.eq_false_iff.mpr fun hasked => by
      simpa [hgiven] using isSome_given?_of_delivered hasked
    simp [settle, ofHistory, hgiven, hnot, Act.verdict?]
  | some first => simp [settle, ofHistory, hgiven]

theorem receive_ofHistory (before : List Act) :
    (ofHistory before).receive = (ofHistory (before ++ [.receive]), answerAfter before) := by
  cases hlistens : listens before with
  | false => simp [receive, ofHistory, answerAfter, hlistens, Act.verdict?]
  | true =>
    cases hgiven : given? before with
    | none => simp [receive, ofHistory, answerAfter, hlistens, hgiven, Act.verdict?]
    | some v =>
      cases hasked : delivered before <;>
        simp [receive, ofHistory, answerAfter, hlistens, hgiven, hasked]

theorem dropReceiver_ofHistory (before : List Act) :
    (ofHistory before).dropReceiver = (ofHistory (before ++ [.dropReceiver]), listens before) := by
  cases hgiven : given? before with
  | none => simp [dropReceiver, ofHistory, hgiven, Act.verdict?]
  | some v =>
    cases hthere : listens before && !delivered before <;>
      simp [dropReceiver, ofHistory, hgiven, hthere]

/-- **An act leads from a history to the history with this act.** -/
theorem act_ofHistory (before : List Act) (a : Act) :
    (ofHistory before).act a = (ofHistory (before ++ [a]), replyTo before a) := by
  cases a with
  | settle v => rw [act, settle_ofHistory]; rfl
  | receive => rw [act, receive_ofHistory]; rfl
  | dropReceiver => rw [act, dropReceiver_ofHistory]; rfl

end Histories

/-! ## All of them -/

theorem run_ofHistory (before acts : List Act) :
    (ofHistory before).run acts = ofHistory (before ++ acts) := by
  induction acts generalizing before with
  | nil => rw [List.append_nil]; rfl
  | cons a acts ih =>
    have hcons : (ofHistory before).run (a :: acts) = ((ofHistory before).act a).1.run acts := rfl
    rw [hcons, act_ofHistory, ih, List.append_assoc]
    rfl

/-- **A settlement is its history.** -/
theorem run_start (acts : List Act) : start.run acts = ofHistory acts :=
  run_ofHistory [] acts

theorem replies_append (s : Settlement) (acts acts' : List Act) :
    s.replies (acts ++ acts') = s.replies acts ++ (s.run acts).replies acts' := by
  induction acts generalizing s with
  | nil => rfl
  | cons a acts ih => exact congrArg (_ :: ·) (ih _)

theorem length_replies (s : Settlement) (acts : List Act) :
    (s.replies acts).length = acts.length := by
  induction acts generalizing s with
  | nil => rfl
  | cons a acts ih => exact congrArg (· + 1) (ih _)

theorem replies_snoc (before : List Act) (a : Act) :
    start.replies (before ++ [a]) = start.replies before ++ [replyTo before a] := by
  rw [replies_append, run_start, replies, act_ofHistory, replies]

theorem getElem?_replies (before : List Act) (a : Act) (after : List Act) :
    (start.replies (before ++ a :: after))[before.length]? = some (replyTo before a) := by
  have hlength := length_replies start before
  rw [replies_append, List.getElem?_append_right (Nat.le_of_eq hlength), hlength, Nat.sub_self,
    run_start, replies, act_ofHistory]
  rfl

/-! ## What happens once -/

theorem given?_eq_none_iff (acts : List Act) : given? acts = none ↔ ∀ v, .settle v ∉ acts := by
  rw [given?, List.findSome?_eq_none_iff]
  constructor
  · intro hnone v hv
    cases hnone _ hv
  · intro hnot a ha
    cases a with
    | settle v => exact absurd ha (hnot v)
    | receive | dropReceiver => rfl

theorem given?_append_of_some {before : List Act} {v : Verdict} (h : given? before = some v)
    (acts : List Act) : given? (before ++ acts) = some v := by
  rw [given?, List.findSome?_append, ← given?, h, Option.some_or]

/-- One verdict at most is the first. -/
theorem count_first (acts : List Act) :
    (start.replies acts).count (.settled true) = (given? acts).isSome.toNat := by
  induction acts using List.reverseRecOn with
  | nil => rfl
  | append_singleton before a ih =>
    rw [replies_snoc, List.count_append, ih, given?_snoc]
    cases hgiven : given? before <;> cases a <;> simp [replyTo, Act.verdict?, hgiven]

theorem verdict?_replyTo (before : List Act) (a : Act) :
    (replyTo before a).verdict? =
      if listens before = true ∧ delivered before = false ∧ a = .receive then given? before
      else none := by
  cases a with
  | settle | dropReceiver => simp [replyTo, Reply.verdict?]
  | receive =>
    cases hlistens : listens before <;> cases hgiven : given? before <;>
      cases hasked : delivered before <;>
      simp [replyTo, answerAfter, Reply.verdict?, hlistens, hgiven, hasked]

/-- **The first verdict is handed over once, or never.** -/
theorem verdicts_replies (acts : List Act) :
    (start.replies acts).filterMap Reply.verdict? =
      if delivered acts then (given? acts).toList else [] := by
  induction acts using List.reverseRecOn with
  | nil => rfl
  | append_singleton before a ih =>
    rw [replies_snoc, List.filterMap_append, ih, delivered_snoc]
    cases hasked : delivered before with
    | true =>
      obtain ⟨v, hv⟩ := Option.isSome_iff_exists.mp (isSome_given?_of_delivered hasked)
      simp [verdict?_replyTo, hasked, hv]
    | false =>
      cases hlistens : listens before <;> cases hgiven : given? before <;>
        by_cases hreceive : a = .receive <;>
        simp [verdict?_replyTo, hasked, hlistens, hgiven, hreceive]

/-- A receiver that is there and has not asked since the first verdict gets it. -/
theorem replyTo_first {before between : List Act} {v : Verdict}
    (hbefore : ∀ v', .settle v' ∉ before) (hbetween : .receive ∉ between)
    (hthere : .dropReceiver ∉ before ++ between) :
    replyTo (before ++ .settle v :: between) .receive = .received (.verdict v) := by
  have hnone : given? before = none := (given?_eq_none_iff before).mpr hbefore
  have hgiven : given? (before ++ .settle v :: between) = some v := by
    rw [given?, List.findSome?_append, ← given?, hnone]
    rfl
  have hlistens : listens (before ++ .settle v :: between) = true := by
    simpa [listens] using hthere
  have hsince : since (before ++ .settle v :: between) = .settle v :: between := by
    refine (List.dropWhile_append_of_pos fun a ha => ?_).trans rfl
    simp [List.findSome?_eq_none_iff.mp hnone a ha]
  have hasked : delivered (before ++ .settle v :: between) = false := by
    rw [delivered, heard_eq_self hlistens, hsince]
    simpa using hbetween
  simp [replyTo, answerAfter, hlistens, hgiven, hasked]

theorem verdicts_of_dropped {before : List Act} (h : listens before = false) (later : List Act) :
    ((ofHistory before).replies later).filterMap Reply.verdict? = [] := by
  induction later generalizing before with
  | nil => rfl
  | cons a later ih =>
    have hnow : (replyTo before a).verdict? = none := by simp [verdict?_replyTo, h]
    have hnext : listens (before ++ [a]) = false := by simp [h]
    simpa [replies, act_ofHistory, hnow] using ih hnext

theorem verdicts_after_drop (before after : List Act) :
    ((start.replies (before ++ .dropReceiver :: after)).drop before.length).filterMap
      Reply.verdict? = [] := by
  have hdropped : listens (before ++ [.dropReceiver]) = false := by simp
  have hlater := verdicts_of_dropped hdropped after
  rw [replies_append, List.drop_left' (length_replies start before), run_start, replies,
    act_ofHistory]
  simpa [replyTo, Reply.verdict?] using hlater

/-! ## The law of the settlement -/

/-- **A settlement hands the first verdict over once at most**, whatever is done on its two sides
and in whatever order:

* each act has one reply, which depends on the acts before it;
* the first verdict is told that it is the first, whether or not the receiver is still there, and no
  other is;
* it is settled exactly if a verdict was given, and neither this nor the verdict ever changes;
* a receiver that asks too early gets nothing, and nothing is lost;
* the first time that it asks after the first verdict, it gets this one, if it is still there;
* no other verdict is handed over, and none twice, and none after the receiver went away. -/
theorem delivers_once (acts : List Act) :
    let s := start.run acts
    let rs := start.replies acts
    (rs.length = acts.length ∧
        ∀ before a after, acts = before ++ a :: after →
          rs[before.length]? = some (replyTo before a)) ∧
      ((∀ before v after, acts = before ++ .settle v :: after →
          (rs[before.length]? = some (.settled true) ↔ ∀ v', .settle v' ∉ before)) ∧
        rs.count (.settled true) = s.settled.toNat) ∧
      ((s.settled = true ↔ ∃ v, .settle v ∈ acts) ∧
        ∀ later, s.settled = true →
          (s.run later).settled = true ∧ given? (acts ++ later) = given? acts) ∧
      (∀ before after, acts = before ++ .receive :: after → (∀ v, .settle v ∉ before) →
        rs[before.length]? = some (.received (if listens before then .empty else .dropped)) ∧
          start.run (before ++ [.receive]) = start.run before) ∧
      (∀ before v between after, acts = before ++ .settle v :: between ++ .receive :: after →
        (∀ v', .settle v' ∉ before) → .receive ∉ between → .dropReceiver ∉ before ++ between →
        rs[(before ++ .settle v :: between).length]? = some (.received (.verdict v))) ∧
      rs.filterMap Reply.verdict? = (if delivered acts then (given? acts).toList else []) ∧
      ∀ before after, acts = before ++ .dropReceiver :: after →
        (rs.drop before.length).filterMap Reply.verdict? = [] := by
  intro s rs
  have hs : s = ofHistory acts := run_start acts
  have hsettled : s.settled = (given? acts).isSome := congrArg settled hs
  refine ⟨⟨length_replies start acts, ?_⟩, ⟨?_, ?_⟩, ⟨?_, fun later hgiven => ?_⟩, ?_, ?_,
    verdicts_replies acts, ?_⟩
  · rintro before a after rfl
    exact getElem?_replies before a after
  · rintro before v after rfl
    have hreply : rs[before.length]? = _ := getElem?_replies before (.settle v) after
    rw [hreply, ← given?_eq_none_iff]
    simp [replyTo]
  · rw [hsettled]
    exact count_first acts
  · rw [hsettled, Option.isSome_iff_ne_none, ne_eq, given?_eq_none_iff]
    simp
  · rw [hsettled] at hgiven
    obtain ⟨v, hv⟩ := Option.isSome_iff_exists.mp hgiven
    have hlater := given?_append_of_some hv later
    rw [hs, run_ofHistory, hv]
    exact ⟨congrArg Option.isSome hlater, hlater⟩
  · rintro before after rfl hearly
    have hnone : given? before = none := (given?_eq_none_iff before).mpr hearly
    have hreply : rs[before.length]? = _ := getElem?_replies before .receive after
    refine ⟨by simp only [hreply, replyTo, answerAfter, hnone], ?_⟩
    rw [run_start, run_start]
    simp [ofHistory, hnone, Act.verdict?]
  · rintro before v between after rfl hbefore hbetween hthere
    exact (getElem?_replies _ .receive after).trans
      (congrArg some (replyTo_first hbefore hbetween hthere))
  · rintro before after rfl
    exact verdicts_after_drop before after

/-- A receiver that asks too early and then too often gets the first of two verdicts once. -/
theorem delivers_once_of_two :
    let v : Verdict := .failure ⟨.protocolError, "boom"⟩
    let acts : List Act := [.receive, .settle v, .settle .success, .receive, .receive,
      .dropReceiver, .receive]
    (start.run acts).settled = true ∧
      (start.replies acts)[3]? = some (.received (.verdict v)) ∧
      (start.replies acts).filterMap Reply.verdict? = [v] := by
  intro v acts
  obtain ⟨-, -, ⟨hsettled, -⟩, -, hfirst, honce, -⟩ := delivers_once acts
  exact ⟨hsettled.mpr ⟨v, by simp [acts]⟩,
    hfirst [.receive] v [.settle .success] [.receive, .dropReceiver, .receive] rfl (by simp)
      (by simp) (by simp), honce⟩

end BotFleet.Settlement
