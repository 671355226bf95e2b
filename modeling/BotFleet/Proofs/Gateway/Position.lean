import BotFleet.Proofs.Gateway.Stream
import BotFleet.Proofs.Session.Work

/-!
# Where the avatar is

A reader notes what its gateway tells of the avatar's position before it hands an event over. So the
position is known before a session hears of its spawn, and no movement tick has to do without one.

* `Inbound.Tells`, `Inbound.LastTold`: what a row of items tells;
* `Inbound.lastTold_iff`: exactly that is noted of it;
* `Downlink.Located`, **`Downlink.Located.step`**: what a reader knows, which its steps keep;
* `GatewaySession`, `GatewaySession.Move`, `GatewaySession.run`: a session and the reader of its
  connection, which take turns in any order;
* `GatewaySession.Placed`, **`GatewaySession.Placed.move`**: what holds of both, whatever happens;
* **`GatewaySession.position_known`**: the law of the position.
-/

namespace BotFleet

namespace Inbound

/-! ## What a row of items tells -/

/-- An item tells where the avatar is: a text that is a spawn or a position. -/
inductive Tells : Inbound → Point → Prop where
  | spawn (frame : String) (p : Point) : ServerMessage.decode? frame = .ok (.spawn p) →
      Tells (.text frame) p
  | position (frame : String) (p : Point) : ServerMessage.decode? frame = .ok (.position p) →
      Tells (.text frame) p

/-- Where the last item that tells it says that the avatar is, if an item of the row tells it. -/
inductive LastTold : List Inbound → Option Point → Prop where
  | nowhere (items : List Inbound) : (∀ x ∈ items, ∀ p, ¬x.Tells p) → LastTold items none
  | told (before : List Inbound) (item : Inbound) (after : List Inbound) (p : Point) :
      item.Tells p → (∀ x ∈ after, ∀ q, ¬x.Tells q) →
      LastTold (before ++ item :: after) (some p)

/-- Where the message of an item says that the avatar is. -/
def told? (item : Inbound) : Option Point := item.message?.bind ServerMessage.position?

theorem told?_eq_some_iff {item : Inbound} {p : Point} : item.told? = some p ↔ item.Tells p := by
  constructor
  · intro h
    obtain ⟨m, hm, hp⟩ := Option.bind_eq_some_iff.mp h
    cases item with
    | text frame =>
      cases hd : ServerMessage.decode? frame with
      | error flaw => rw [message?, hd] at hm; cases hm
      | ok m' =>
        rw [message?, hd] at hm
        cases hm
        cases m <;> cases hp
        · exact .spawn frame p hd
        · exact .position frame p hd
    | _ => cases hm
  · rintro (⟨frame, _, hd⟩ | ⟨frame, _, hd⟩) <;>
      simp [told?, message?, hd, Except.toOption, ServerMessage.position?]

theorem told?_eq_none_iff {item : Inbound} : item.told? = none ↔ ∀ p, ¬item.Tells p := by
  simp only [← told?_eq_some_iff, Option.eq_none_iff_forall_ne_some, ne_eq]

theorem position?_append (before after : List Inbound) :
    position? (before ++ after) = (position? after).or (position? before) := by
  rw [position?, List.filterMap_append, List.getLast?_append]
  rfl

theorem position?_singleton (item : Inbound) : position? [item] = item.told? := by
  rw [position?, told?]
  cases h : item.message?.bind ServerMessage.position? <;> simp [h]

theorem position?_eq_none_iff {items : List Inbound} :
    position? items = none ↔ ∀ x ∈ items, ∀ p, ¬x.Tells p := by
  rw [position?, List.getLast?_eq_none_iff, List.filterMap_eq_nil_iff]
  exact forall₂_congr fun x _ => told?_eq_none_iff

/-- **What is noted of a row of items is what they have told last.** -/
theorem lastTold_iff (items : List Inbound) (o : Option Point) :
    LastTold items o ↔ position? items = o := by
  constructor
  · intro h
    cases h with
    | nowhere _ hnone => exact position?_eq_none_iff.mpr hnone
    | told before item after p hp hnone =>
      rw [List.append_cons, position?_append, position?_eq_none_iff.mpr hnone, position?_append,
        position?_singleton, told?_eq_some_iff.mpr hp]
      rfl
  · rintro rfl
    cases hlast : position? items with
    | none => exact .nowhere items (position?_eq_none_iff.mp hlast)
    | some p =>
      obtain ⟨earlier, hsplit⟩ := List.getLast?_eq_some_iff.mp hlast
      obtain ⟨before, rest, rfl, -, hrest⟩ := List.filterMap_eq_append_iff.mp hsplit
      obtain ⟨between, item, after, rfl, -, hp, hnil⟩ := List.filterMap_eq_cons_iff.mp hrest
      rw [← List.append_assoc]
      exact .told _ item after p (told?_eq_some_iff.mp hp) fun x hx =>
        told?_eq_none_iff.mp (List.filterMap_eq_nil_iff.mp hnil x hx)

theorem told_of_spawn {item : Inbound} (h : item.event? = some .spawn) : item.told?.isSome := by
  cases item with
  | text frame =>
    obtain ⟨m, hm, hspawn⟩ := Option.bind_eq_some_iff.mp h
    rw [told?, hm]
    cases m <;> first | rfl | cases hspawn
  | _ => cases h

end Inbound

namespace Downlink

/-! ## What a reader knows -/

variable {d d' : Downlink} {items : List Inbound}

theorem look_position (d : Downlink) (item : Inbound) :
    (d.look item).position = item.told?.or d.position := by
  cases hm : item.message? with
  | none =>
    rw [Inbound.told?, hm, Option.bind_none, Option.none_or]
    cases hf : item.farewell? <;> simp only [look, hf, hm]
  | some m =>
    -- an item with a message is a text, which ends the stream only by what it says
    have hf : item.farewell? = none := by cases item <;> first | rfl | cases hm
    have hlook : (d.look item).position = (d.notePosition m).position := by
      simp only [look, hf, hm]
      cases m.event? <;> rfl
    rw [hlook, Inbound.told?, hm, Option.bind_some, notePosition]
    cases m.position? <;> rfl

/-- What a reader knows when some items have arrived: where those which it has looked at have told
it that the avatar is, and that before it hands a spawn over. -/
structure Located (d : Downlink) (items : List Inbound) : Prop where
  noted : ∃ read, items = read ++ d.incoming ∧ Inbound.position? read = d.position
  known : .spawn ∈ d.waiting ++ d.pending → d.position.isSome

theorem located_start : Located {} [] := ⟨⟨[], rfl, rfl⟩, nofun⟩

theorem Located.arrive (h : d.Located items) (item : Inbound) :
    (d.arrive item).Located (items ++ [item]) := by
  obtain ⟨read, rfl, hread⟩ := h.noted
  exact ⟨⟨read, List.append_assoc .., hread⟩, h.known⟩

theorem Located.next (h : d.Located items) (hd : d.reader = .reading) {item : Inbound}
    {rest : List Inbound} (hi : d.incoming = item :: rest) : (d.next item rest).Located items := by
  have hl := looked_next hd item rest
  have hposition : (d.next item rest).position = item.told?.or d.position := look_position ..
  obtain ⟨read, rfl, hread⟩ := h.noted
  refine ⟨⟨read ++ [item], ?_, ?_⟩, fun hspawn => ?_⟩
  · rw [hi, List.append_cons, hl.incoming]
  · rw [Inbound.position?_append, Inbound.position?_singleton, hread, hposition]
  · rw [hposition, Option.isSome_or, Bool.or_eq_true]
    rw [hl.waiting, hl.pending] at hspawn
    rcases List.mem_append.mp hspawn with hwaits | hnew
    · exact .inr (h.known (List.mem_append_left _ hwaits))
    · exact .inl (Inbound.told_of_spawn (Option.mem_toList.mp hnew))

/-- Nothing is looked at, and no event is added to those on their way. -/
structure Quiet (d d' : Downlink) : Prop where
  incoming : d'.incoming = d.incoming
  position : d'.position = d.position
  events : d'.waiting ++ d'.pending ⊆ d.waiting ++ d.pending

theorem Quiet.refl (d : Downlink) : Quiet d d := ⟨rfl, rfl, List.Subset.refl _⟩

theorem Quiet.ite (h : Quiet d d') (b : Bool) : Quiet d (if b then d' else d) := by
  cases b
  · exact .refl d
  · exact h

theorem Located.quiet (h : d.Located items) (hq : Quiet d d') : d'.Located items :=
  ⟨by rw [hq.incoming, hq.position]; exact h.noted,
    fun hspawn => by rw [hq.position]; exact h.known (hq.events hspawn)⟩

theorem quiet_deliver {e : Client.Event} {last : Bool} (hd : d.reader = .delivering e last) :
    Quiet d (d.deliver e last) := by
  have hpending : d.pending = [e] := by rw [pending, hd]
  unfold deliver
  split
  · exact ⟨rfl, rfl, List.append_subset.mpr ⟨List.subset_append_left .., List.nil_subset _⟩⟩
  · split
    · refine ⟨rfl, rfl, List.append_subset.mpr ⟨?_, by cases last <;> exact List.nil_subset _⟩⟩
      rw [hpending]
      exact List.Subset.refl _
    · exact .refl d

/-- **A step of the reader.** -/
theorem Located.step (h : d.Located items) : d.step.Located items := by
  cases hd : d.reader with
  | reading =>
    cases hi : d.incoming with
    | nil => rwa [step_of_idle hd hi]
    | cons item rest => rw [step_of_item hd hi]; exact h.next hd hi
  | delivering e last => rw [step_of_delivering hd]; exact h.quiet (quiet_deliver hd)
  | ended => rwa [step_of_ended hd]

theorem quiet_receive (d : Downlink) : Quiet d d.receive.1 := by
  unfold receive
  cases hw : d.waiting with
  | nil => exact .refl d
  | cons e rest =>
    refine ⟨rfl, rfl, ?_⟩
    rw [hw]
    exact List.subset_cons_self ..

theorem quiet_dropReceiver (d : Downlink) : Quiet d d.dropReceiver :=
  ⟨rfl, rfl, List.subset_append_right ..⟩

theorem quiet_abort (d : Downlink) : Quiet d d.abort :=
  ⟨rfl, rfl, List.append_subset.mpr ⟨List.subset_append_left .., List.nil_subset _⟩⟩

theorem isSome_position_step (h : d.position.isSome) : d.step.position.isSome := by
  cases hd : d.reader with
  | reading =>
    cases hi : d.incoming with
    | nil => rwa [step_of_idle hd hi]
    | cons item rest =>
      have hposition : (d.next item rest).position = item.told?.or d.position := look_position ..
      rw [step_of_item hd hi, hposition, Option.isSome_or, h, Bool.or_true]
  | delivering e last => rwa [step_of_delivering hd, (quiet_deliver hd).position]
  | ended => rwa [step_of_ended hd]

end Downlink

namespace Session

variable {s s' : Session}

theorem Worked.routine {o? : Option Occurrence} {es : List Effect} (hw : Worked s o? s' es) :
    s'.routine = s.routine ∨ s.inbox.head? = some (.event .spawn) := by
  cases hw with
  | spawned rest lines hp hs hi => exact .inr (by rw [hi]; rfl)
  | _ => exact .inl rfl

theorem inbox_of_sight {r : Report} (h : s.sight? = some (.report r)) : s.inbox.head? = some r := by
  unfold sight? at h
  split at h
  · split at h
    · cases h
    · split at h
      · obtain ⟨o, -, ho⟩ := Option.map_eq_some_iff.mp h
        cases ho
      · obtain ⟨r', hr', hreport⟩ := Option.map_eq_some_iff.mp h
        cases hreport
        exact hr'
      · cases h
  · cases h

end Session

namespace Routine

variable {r : Routine} {c : Situation}

theorem turns_of_sight (h : r.ready c .move = true) (hc : c.cancelled = false) {p : Point}
    (hp : c.responses.sight = .at p) (draw : Draw) : ∃ rest, (r.step c draw .move).2 =
      .call (.lookAt (p.shifted draw.shift.1 draw.shift.2) true) :: rest := by
  obtain ⟨t, hm, hdue⟩ := exists_of_activityReady h
  simp only [step, hm, hc, Bool.false_eq_true, if_false, if_pos (hdue hc), moveTick, hp]
  cases c.responses.look with
  | crash | refused f => exact ⟨_, rfl⟩
  | done => cases c.responses.engage <;> exact ⟨_, rfl⟩

end Routine

/-! ## A session of a gateway -/

/-- A session whose client is connected to a gateway, and the reading side of the connection. -/
structure GatewaySession where
  session : Session
  downlink : Downlink := {}

namespace GatewaySession

/-- A session that has not done anything, and that is going to connect in some way. -/
def start (settings : SessionSettings) (pace : Option Pace) (opening : Option (Nat × Opening)) :
    GatewaySession where
  session := .start settings pace { opening }

/-- What the session finds when it looks for events: the next one, or that there will be no more. -/
def inbox (g : GatewaySession) : List Report :=
  match g.downlink.waiting, g.downlink.reader with
  | e :: _, _ => [.event e]
  | [], .ended => [.closed]
  | [], _ => []

/-- The session with what it finds. -/
def found (g : GatewaySession) : Session := { g.session with inbox := g.inbox }

/-- The event that the session receives when it works now. -/
def receives? (g : GatewaySession) : Option Client.Event :=
  match g.found.sight? with
  | some (.report (.event e)) => some e
  | _ => none

/-- The session with a client whose avatar is where the reader has noted it, and which answers calls
somehow. -/
def answered (g : GatewaySession) (answers : Client.Responses) : Session :=
  let sight := g.downlink.position.elim .unknown .at
  { g.session with responses := { answers with sight } }

/-- What may happen: an item arrives, the reader takes its next step, the session works, its routine
takes a turn, in which calls are answered somehow, the session is asked to stop, or time passes. A
session that is over gives its receiver up, and in the end its client. -/
inductive Move where
  | arrive (item : Inbound)
  | read
  | work (draw : Draw)
  | turn (draw : Draw) (task : Routine.Task) (answers : Client.Responses)
  | stop
  | pass (ms : Nat)
  | giveUp
  | drop

/-- What the session does in a move. -/
def acts (g : GatewaySession) : Move → Session × List Effect
  | .work draw => g.found.step draw .work
  | .turn draw task answers => (g.answered answers).step draw (.routine task)
  | .stop => (g.session.requestStop, [])
  | .pass ms => (g.session.pass ms, [])
  | _ => (g.session, [])

/-- What becomes of the reading side in a move. -/
def reads (g : GatewaySession) : Move → Downlink
  | .arrive item => g.downlink.arrive item
  | .read => g.downlink.step
  | .work _ => if g.receives?.isSome then g.downlink.receive.1 else g.downlink
  | .giveUp => if g.session.phase.isOver then g.downlink.dropReceiver else g.downlink
  | .drop => if g.session.phase.isOver then g.downlink.abort else g.downlink
  | _ => g.downlink

def move (g : GatewaySession) (m : Move) : GatewaySession := ⟨(g.acts m).1, g.reads m⟩

/-- Any number of moves in any order. -/
def run (g : GatewaySession) (ms : List Move) : GatewaySession := ms.foldl move g

/-- What arrives in a move. -/
def Move.brings : Move → List Inbound
  | .arrive item => [item]
  | _ => []

/-- What arrives during a run. -/
def arrivals (ms : List Move) : List Inbound := ms.flatMap Move.brings

/-- A movement tick takes place: it is due, and the routine has not been cancelled. -/
def ticks (g : GatewaySession) : Bool :=
  g.session.ready (.routine .move) && !g.session.situation.cancelled

variable {g : GatewaySession} {items : List Inbound}

/-- The reading side knows what it has been told, and before there is a routine. -/
structure Placed (g : GatewaySession) (items : List Inbound) : Prop where
  coherent : g.session.Coherent
  located : g.downlink.Located items
  known : g.session.routine.isSome → g.downlink.position.isSome

theorem placed_start (settings : SessionSettings) (pace : Option Pace)
    (opening : Option (Nat × Opening)) : (start settings pace opening).Placed [] :=
  ⟨Session.coherent_start .., Downlink.located_start, nofun⟩

theorem mem_waiting_of_inbox {e : Client.Event} (hi : g.inbox.head? = some (.event e)) :
    e ∈ g.downlink.waiting := by
  unfold inbox at hi
  split at hi
  · rename_i hw
    cases hi
    rw [hw]
    exact List.mem_cons_self
  · cases hi
  · cases hi

theorem Placed.spawn (h : g.Placed items) (hi : g.inbox.head? = some (.event .spawn)) :
    g.downlink.position.isSome :=
  h.located.known (List.mem_append_left _ (mem_waiting_of_inbox hi))

theorem inbox_of_receives {e : Client.Event} (he : g.receives? = some e) :
    g.inbox.head? = some (.event e) := by
  rw [receives?] at he
  split at he
  · rename_i hsight
    cases he
    exact Session.inbox_of_sight hsight
  · cases he

/-! ## Every run -/

theorem Placed.work (h : g.Placed items) (draw : Draw) : (g.move (.work draw)).Placed items := by
  have halike : Session.Alike g.session g.found := ⟨rfl, rfl, rfl, rfl, rfl, rfl, rfl⟩
  have hfound := halike.coherent h.coherent
  have hquiet : Downlink.Quiet g.downlink (g.reads (.work draw)) :=
    (Downlink.quiet_receive g.downlink).ite _
  refine ⟨Session.coherent_step hfound draw .work, h.located.quiet hquiet, fun hroutine => ?_⟩
  have hknown : g.downlink.position.isSome := by
    rcases (Session.step_work hfound draw).routine with hsame | hi
    · exact h.known (hsame ▸ hroutine)
    · exact h.spawn hi
  exact hquiet.position ▸ hknown

theorem Placed.quiet (h : g.Placed items) {s : Session} {d : Downlink} (hc : s.Coherent)
    (hroutine : s.routine.isSome = g.session.routine.isSome)
    (hquiet : Downlink.Quiet g.downlink d) : Placed ⟨s, d⟩ items :=
  ⟨hc, h.located.quiet hquiet, fun hsome => hquiet.position ▸ h.known (hroutine ▸ hsome)⟩

theorem Placed.turn (h : g.Placed items) (draw : Draw) (task : Routine.Task)
    (answers : Client.Responses) : (g.move (.turn draw task answers)).Placed items := by
  have halike : Session.Alike g.session (g.answered answers) :=
    ⟨rfl, rfl, rfl, rfl, rfl, rfl, rfl⟩
  exact h.quiet (Session.coherent_step (halike.coherent h.coherent) draw (.routine task))
    (Session.alike_routine (s := g.answered answers) draw task).routine (.refl _)

/-- **Whatever happens, this goes on to hold.** -/
theorem Placed.move (h : g.Placed items) (m : Move) : (g.move m).Placed (items ++ m.brings) := by
  have hnone : items ++ [] = items := List.append_nil items
  cases m with
  | arrive item => exact ⟨h.coherent, h.located.arrive item, h.known⟩
  | read =>
    exact hnone.symm ▸ ⟨h.coherent, h.located.step,
      fun hroutine => Downlink.isSome_position_step (h.known hroutine)⟩
  | work draw => exact hnone.symm ▸ h.work draw
  | turn draw task answers => exact hnone.symm ▸ h.turn draw task answers
  | stop =>
    have halike : Session.Alike g.session g.session.requestStop :=
      ⟨rfl, rfl, rfl, rfl, rfl, rfl, rfl⟩
    exact hnone.symm ▸ h.quiet (halike.coherent h.coherent) rfl (.refl _)
  | pass ms =>
    have halike : Session.Alike g.session (g.session.pass ms) := ⟨rfl, rfl, rfl, rfl, rfl, rfl, rfl⟩
    exact hnone.symm ▸ h.quiet (halike.coherent h.coherent) rfl (.refl _)
  | giveUp =>
    exact hnone.symm ▸ h.quiet h.coherent rfl ((Downlink.quiet_dropReceiver g.downlink).ite _)
  | drop => exact hnone.symm ▸ h.quiet h.coherent rfl ((Downlink.quiet_abort g.downlink).ite _)

theorem Placed.run (h : g.Placed items) (ms : List Move) :
    (g.run ms).Placed (items ++ arrivals ms) := by
  induction ms generalizing g items with
  | nil => simpa [arrivals, GatewaySession.run] using h
  | cons m ms ih =>
    have hnext := ih (h.move m)
    rw [List.append_assoc] at hnext
    exact hnext

theorem placed_run (settings : SessionSettings) (pace : Option Pace)
    (opening : Option (Nat × Opening)) (ms : List Move) :
    ((start settings pace opening).run ms).Placed (arrivals ms) :=
  (placed_start settings pace opening).run ms

/-! ## The law of the position -/

theorem effects_of_not_ticks (hticks : g.ticks = false) (draw : Draw)
    (answers : Client.Responses) :
    (g.acts (.turn draw .move answers)).2 =
      if g.session.ready (.routine .move) then
        [Routine.logLine .debug g.session.situation "Movement task stopped"]
      else [] := by
  show ((g.answered answers).step draw (.routine .move)).2 = _
  rcases Session.step_routine (g.answered answers) draw .move with
    ⟨hidle, hs⟩ | ⟨r, hr, hready, hs⟩ <;> rw [hs]
  · have hnone : g.session.ready (.routine .move) = false := hidle
    rw [hnone]
    rfl
  · have hany : g.session.ready (.routine .move) = true :=
      (Option.any_eq_true ..).mpr ⟨r, hr, hready⟩
    rw [ticks, hany, Bool.true_and, Bool.not_eq_false'] at hticks
    rw [if_pos hany]
    exact (Routine.stepped hready draw).end_of_movement hticks

theorem turns_of_ticks (hticks : g.ticks = true) {p : Point} (hp : g.downlink.position = some p)
    (draw : Draw) (answers : Client.Responses) :
    ∃ rest, (g.acts (.turn draw .move answers)).2 =
      .call (.lookAt (p.shifted draw.shift.1 draw.shift.2) true) :: rest := by
  rw [ticks, Bool.and_eq_true, Bool.not_eq_true'] at hticks
  have hsight : (g.answered answers).situation.responses.sight = .at p := by
    show g.downlink.position.elim _ _ = _
    rw [hp]
    rfl
  show ∃ rest, ((g.answered answers).step draw (.routine .move)).2 = _
  rcases Session.step_routine (g.answered answers) draw .move with ⟨hidle, -⟩ | ⟨r, hr, hready, hs⟩
  · exact absurd (hticks.1.symm.trans hidle) (by decide)
  · rw [hs]
    exact Routine.turns_of_sight hready hticks.2 hsight draw

/-- **The law of the position.** Whatever a gateway sends, and however the reader, the session and
its routine take turns,

* the reader has looked at the items that arrived first, and the position is what the last of them
  that tells it says; a reader that is not handing an event over looks at the next item;
* when the session receives a spawn, the position is known;
* a movement tick is never skipped: it begins with a turn, from the position; and what is no tick
  does nothing, but for the note that a cancelled movement has stopped. -/
theorem position_known (settings : SessionSettings) (pace : Option Pace)
    (opening : Option (Nat × Opening)) (ms : List Move) :
    let g := (start settings pace opening).run ms
    (∃ read, arrivals ms = read ++ g.downlink.incoming ∧
      (∀ o, Inbound.LastTold read o ↔ o = g.downlink.position)) ∧
    (∀ item rest, g.downlink.reader = .reading → g.downlink.incoming = item :: rest →
      (g.move .read).downlink.incoming = rest) ∧
    (g.receives? = some .spawn → g.downlink.position.isSome) ∧
    ∀ draw answers,
      (g.ticks = true → ∃ p rest, g.downlink.position = some p ∧
        (g.acts (.turn draw .move answers)).2 =
          .call (.lookAt (p.shifted draw.shift.1 draw.shift.2) true) :: rest) ∧
      (g.ticks = false → (g.acts (.turn draw .move answers)).2 =
        if g.session.ready (.routine .move) then
          [Routine.logLine .debug g.session.situation "Movement task stopped"]
        else []) := by
  intro g
  have h : g.Placed (arrivals ms) := placed_run settings pace opening ms
  obtain ⟨read, hread, hnoted⟩ := h.located.noted
  refine ⟨⟨read, hread, fun o => ?_⟩, fun item rest hd hi => ?_,
    fun hspawn => h.spawn (inbox_of_receives hspawn),
    fun draw answers => ⟨fun hticks => ?_, fun hticks => effects_of_not_ticks hticks draw answers⟩⟩
  · rw [Inbound.lastTold_iff, hnoted]
    exact eq_comm
  · have hstep : (g.move .read).downlink = g.downlink.next item rest := Downlink.step_of_item hd hi
    rw [hstep, (Downlink.looked_next hd item rest).incoming]
  · have hroutine : g.session.routine.isSome := by
      obtain ⟨r, hr, -⟩ := (Option.any_eq_true ..).mp (Bool.and_eq_true_iff.mp hticks).1
      rw [hr]
      rfl
    obtain ⟨p, hp⟩ := Option.isSome_iff_exists.mp (h.known hroutine)
    obtain ⟨rest, hrest⟩ := turns_of_ticks hticks hp draw answers
    exact ⟨p, rest, hp, hrest⟩

/-- A movement tick of a session whose gateway has told where its avatar spawned. -/
example :
    let frame := (ServerMessage.spawn default).encode
    let g := (start default (some ⟨5000, 400, 10000⟩) (some (0, .opened))).run
      [.work .steady, .work .steady, .arrive (.text frame), .read, .read, .work .steady, .pass 5000]
    g.downlink.position = some default ∧ g.ticks = true := by
  decide +kernel

end GatewaySession

end BotFleet
