import BotFleet.Proofs.Routine.Step

/-!
# The turns of a routine

A turn is what a routine does when it can do something and is not cancelled: a tick of one of its
activities, or letting go of `forward`.

* `Client.Responses.engages`, `Client.Responses.crashes`: what becomes of a turn;
* `Turn`, `Turn.Lawful`: a turn, and what it does to the client, according to the client's responses;
* **`Routine.Turned`**: all that a turn changes in its routine;
* **`Routine.turned`**, `Routine.lawful_step`: every turn is of this kind.
-/

namespace BotFleet

/-- What a turn of a routine is about. -/
inductive Turn.Kind where
  | move
  | chat
  | release
deriving DecidableEq

def Routine.Task.kind : Routine.Task → Turn.Kind
  | .move => .move
  | .chat => .chat
  | .release _ => .release

namespace Client.Responses

/-- A movement tick holds `forward`. -/
def engages (r : Responses) : Bool :=
  match r.sight with
  | .at _ => r.look = .done ∧ r.engage = .done
  | _ => false

/-- A turn crashes its activity. -/
def crashes (r : Responses) : Turn.Kind → Bool
  | .move =>
    match r.sight with
    | .crash => true
    | .unknown => false
    | .at _ => r.look = .crash ∨ r.look = .done ∧ r.engage = .crash
  | .chat => r.chat = .crash
  | .release => false

end Client.Responses

/-- A turn of a routine: what it is about, how the client responds, and what comes of it. -/
structure Turn where
  kind : Turn.Kind
  responses : Client.Responses
  effects : List Effect
deriving DecidableEq

namespace Turn

/-- The calls of a turn, and the counting of them. -/
def deeds (u : Turn) : List Effect := u.effects.filter Effect.isDeed

/-- A turn crashes its activity. -/
def crashes (u : Turn) : Bool := u.responses.crashes u.kind

/-- A movement tick that holds `forward`. -/
def engages (u : Turn) : Bool := u.kind = .move && u.responses.engages

/-- A chat tick that says something. -/
def speaks (u : Turn) : Bool := u.kind = .chat && u.responses.chat = .done

/-- What a turn counts. -/
def counts (u : Turn) : Counter → Bool
  | .moves => u.engages
  | .chats => u.speaks
  | _ => false

/-- What a turn does to the client. Without a known position a movement tick does nothing. Otherwise
it turns once, at the height of the position, and holds `forward` exactly if that succeeds. What
succeeds as a whole is counted. -/
def Lawful (u : Turn) : Prop :=
  match u.kind with
  | .move =>
    match u.responses.sight with
    | .at p => ∃ q : Point, q.y = p.y ∧ u.deeds = .call (.lookAt q true) ::
      if u.responses.look = .done then .call (.setControl .forward true) ::
        if u.responses.engage = .done then [.count .moves] else []
      else []
    | _ => u.deeds = []
  | .chat => ∃ line ∈ chatLines, u.deeds = .call (.chat line) ::
      if u.responses.chat = .done then [.count .chats] else []
  | .release => u.deeds = [.call (.setControl .forward false)]

variable {u : Turn}

/-- **A turn counts a move exactly if it holds `forward`, and a chat exactly if it says
something.** -/
theorem Lawful.count (h : u.Lawful) (c : Counter) : u.deeds.count (.count c) = (u.counts c).toNat := by
  unfold Lawful at h
  unfold counts engages speaks Client.Responses.engages
  cases hk : u.kind <;> rw [hk] at h
  case move =>
    cases hs : u.responses.sight <;> rw [hs] at h
    case «at» p =>
      obtain ⟨q, -, hdeeds⟩ := h
      rw [hdeeds]
      by_cases hl : u.responses.look = .done <;> by_cases he : u.responses.engage = .done <;>
        cases c <;> simp [hl, he]
    all_goals
      rw [show u.deeds = [] from h]
      cases c <;> rfl
  case chat =>
    obtain ⟨line, -, hdeeds⟩ := h
    rw [hdeeds]
    by_cases hc : u.responses.chat = .done <;> cases c <;> simp [hc]
  case release =>
    rw [show u.deeds = [_] from h]
    cases c <;> rfl

end Turn

namespace Routine

variable {r : Routine} {c : Situation}

/-! ## What a turn changes -/

theorem moveTick_eq (r : Routine) (c : Situation) (draw : Draw) : (r.moveTick c draw).1 =
    { r with
      moving := if c.responses.crashes .move then .crashed else r.moving
      releases := r.releases ++
        if c.responses.engages then [Clock.wake c.now r.moveDuration] else [] } := by
  unfold moveTick Client.Responses.crashes Client.Responses.engages
  cases c.responses.sight with
  | crash | unknown => simp
  | «at» p =>
    cases c.responses.look with
    | crash | refused f => simp
    | done => cases c.responses.engage <;> simp

theorem chatTick_eq (r : Routine) (c : Situation) (draw : Draw) : (r.chatTick c draw).1 =
    { r with chatting := if c.responses.crashes .chat then .crashed else r.chatting } := by
  unfold chatTick Client.Responses.crashes
  cases c.responses.chat <;> simp

/-- What a turn changes: an activity goes on or crashes, and a release is added or done. -/
inductive Turned (r : Routine) (c : Situation) : Turn.Kind → Routine → Prop where
  | moved (t : Ticker) : r.moving = .running t → t.due ≤ c.now →
      Turned r c .move { r with
        moving := if c.responses.crashes .move then .crashed else .running (t.advance c.now)
        releases := r.releases ++
          if c.responses.engages then [Clock.wake c.now r.moveDuration] else [] }
  | chatted (t : Ticker) : r.chatting = .running t → t.due ≤ c.now →
      Turned r c .chat { r with
        chatting := if c.responses.crashes .chat then .crashed else .running (t.advance c.now) }
  | released (i due : Nat) : r.releases[i]? = some due → due ≤ c.now →
      Turned r c .release { r with releases := r.releases.eraseIdx i }

variable {task : Task}

/-- **Every turn is of this kind.** -/
theorem turned (h : r.ready c task = true) (hc : c.cancelled = false) (draw : Draw) :
    Turned r c task.kind (r.step c draw task).1 := by
  cases task with
  | move =>
    obtain ⟨t, hm, hdue⟩ := exists_of_activityReady h
    simp only [step, hm, hc, Bool.false_eq_true, if_false, if_pos (hdue hc), moveTick_eq]
    exact .moved t hm (hdue hc)
  | chat =>
    obtain ⟨t, hm, hdue⟩ := exists_of_activityReady h
    simp only [step, hm, hc, Bool.false_eq_true, if_false, if_pos (hdue hc), chatTick_eq]
    exact .chatted t hm (hdue hc)
  | release i =>
    cases hi : r.releases[i]? with
    | none => simp [ready, hi] at h
    | some due =>
      have hdue : due ≤ c.now := by simpa [ready, hi, hc] using h
      simp only [step, hi, hc, Bool.false_eq_true, if_false, if_pos hdue]
      exact .released i due hi hdue

/-! ## What a turn does -/

theorem lawful_moveTick (r : Routine) (c : Situation) (draw : Draw) :
    Turn.Lawful ⟨.move, c.responses, (r.moveTick c draw).2⟩ := by
  unfold moveTick Turn.Lawful Turn.deeds
  cases c.responses.sight with
  | crash | unknown => rfl
  | «at» p =>
    refine ⟨p.shifted draw.shift.1 draw.shift.2, rfl, ?_⟩
    cases c.responses.look with
    | crash | refused f => rfl
    | done => cases c.responses.engage <;> rfl

theorem lawful_chatTick (r : Routine) (c : Situation) (draw : Draw) :
    Turn.Lawful ⟨.chat, c.responses, (r.chatTick c draw).2⟩ := by
  refine ⟨chatLines[draw.line], by simp, ?_⟩
  unfold chatTick Turn.deeds
  cases c.responses.chat <;> rfl

theorem lawful_release (c : Situation) :
    Turn.Lawful ⟨.release, c.responses, releaseEffects c⟩ := by
  unfold releaseEffects Turn.Lawful Turn.deeds
  cases c.responses.release <;> rfl

/-- **What a turn does to the client.** -/
theorem lawful_step (h : r.ready c task = true) (hc : c.cancelled = false) (draw : Draw) :
    Turn.Lawful ⟨task.kind, c.responses, (r.step c draw task).2⟩ := by
  cases task with
  | move =>
    obtain ⟨t, hm, hdue⟩ := exists_of_activityReady h
    simp only [step, hm, hc, Bool.false_eq_true, if_false, if_pos (hdue hc)]
    exact lawful_moveTick ..
  | chat =>
    obtain ⟨t, hm, hdue⟩ := exists_of_activityReady h
    simp only [step, hm, hc, Bool.false_eq_true, if_false, if_pos (hdue hc)]
    exact lawful_chatTick ..
  | release i =>
    cases hi : r.releases[i]? with
    | none => simp [ready, hi] at h
    | some due =>
      have hdue : due ≤ c.now := by simpa [ready, hi, hc] using h
      simp only [step, hi, hc, Bool.false_eq_true, if_false, if_pos hdue]
      exact lawful_release c

end Routine

end BotFleet
