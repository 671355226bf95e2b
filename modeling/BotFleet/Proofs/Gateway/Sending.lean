import BotFleet.Gateway.Connection
import BotFleet.Proofs.Gateway.Stream

/-!
# The frames of a client

What a client sends is written in its order, however its callers and the writer take turns, and
whatever becomes of the writer.

* `Uplink.Sent`, `Uplink.Sent.offer`, `Uplink.Sent.step`: what has been accepted has been written, is
  being written, waits, or has been lost because a frame could not be written;
* `Uplink.toDo`: how many steps a writer has left whose client has been dropped;
* `Connection.Move`, `Connection.run`: what may happen to a connection, in any order;
* `Connection.accepted`: the frames that have been accepted;
* **`Connection.sent_run`**: the frames of a connection after every run;
* **`Connection.frames_in_order`**: the law of the frames.
-/

namespace BotFleet

namespace Uplink

/-! ## What has been accepted -/

/-- What has been accepted, by what the writer is doing: it has been written, is being written, or
waits. Frames are lost only once one could not be written; otherwise the writer comes to its end
after it has written everything, when the client has been dropped. -/
inductive Sent (greeting : String) (failed : Prop) : Uplink → List String → Prop where
  | waiting (taken queue : List String) (held : Bool) :
      Sent greeting failed ⟨queue, .waiting, greeting :: taken, held⟩ (taken ++ queue)
  | writing (taken queue : List String) (frame : String) (held : Bool) :
      Sent greeting failed ⟨queue, .writing frame, greeting :: taken, held⟩ (taken ++ frame :: queue)
  | broken (taken queue : List String) (frame : String) (held : Bool) : failed →
      Sent greeting failed ⟨queue, .closing, greeting :: taken, held⟩ (taken ++ frame :: queue)
  | left (taken : List String) :
      Sent greeting failed ⟨[], .closing, greeting :: taken, false⟩ taken
  | ended (taken lost : List String) (held : Bool) : failed ∨ lost = [] ∧ held = false →
      Sent greeting failed ⟨[], .ended, greeting :: taken, held⟩ (taken ++ lost)

variable {greeting : String} {failed : Prop} {u : Uplink} {accepted : List String}

theorem sent_greeted (greeting : String) (failed : Prop) :
    Sent greeting failed (.greeted greeting) [] :=
  .waiting [] [] true

theorem Sent.written (h : Sent greeting failed u accepted) :
    ∃ taken, u.written = greeting :: taken ∧ taken <+: accepted := by
  cases h with
  | left => exact ⟨accepted, rfl, List.prefix_rfl⟩
  | waiting taken | writing taken | broken taken | ended taken =>
    exact ⟨taken, rfl, List.prefix_append ..⟩

theorem Sent.queue (h : Sent greeting failed u accepted) : u.queue <:+ accepted := by
  cases h with
  | waiting taken queue => exact List.suffix_append ..
  | writing taken queue frame | broken taken queue frame =>
    exact (List.suffix_cons frame queue).trans (List.suffix_append ..)
  | left | ended => exact List.nil_suffix

/-- A writer that closes the connection, though every frame could be written, has written all. -/
theorem Sent.all_written (h : Sent greeting failed u accepted) (hworks : ¬failed)
    (hw : u.writer = .closing ∨ u.writer = .ended) :
    u.written = greeting :: accepted ∧ u.held = false := by
  cases h with
  | waiting | writing => simp at hw
  | broken taken queue frame held hf => exact absurd hf hworks
  | left => exact ⟨rfl, rfl⟩
  | ended taken lost held hover =>
    obtain ⟨rfl, rfl⟩ := hover.resolve_left hworks
    exact ⟨by rw [List.append_nil], rfl⟩

theorem Sent.enqueue (h : Sent greeting failed u accepted) (hheld : u.held = true)
    (hw : u.writer ≠ .ended) (frame : String) :
    Sent greeting failed { u with queue := u.queue ++ [frame] } (accepted ++ [frame]) := by
  cases h with
  | waiting taken queue held =>
    rw [List.append_assoc]
    exact .waiting taken _ held
  | writing taken queue f held =>
    rw [List.append_assoc]
    exact .writing taken _ f held
  | broken taken queue f held hf =>
    rw [List.append_assoc]
    exact .broken taken _ f held hf
  | left => cases hheld
  | ended taken lost held hover => exact absurd rfl hw

theorem Sent.dropClient (h : Sent greeting failed u accepted) :
    Sent greeting failed u.dropClient accepted := by
  cases h with
  | waiting taken queue held => exact .waiting taken queue false
  | writing taken queue frame held => exact .writing taken queue frame false
  | broken taken queue frame held hf => exact .broken taken queue frame false hf
  | left => exact .left accepted
  | ended taken lost held hover =>
    exact .ended taken lost false (hover.imp_right fun hlost => ⟨hlost.1, rfl⟩)

theorem Sent.step (h : Sent greeting failed u accepted) {works : Bool}
    (hworks : works = false → failed) : Sent greeting failed (u.step works) accepted := by
  cases h with
  | waiting taken queue held =>
    cases queue with
    | cons frame rest => exact .writing taken rest frame held
    | nil =>
      cases held with
      | true => exact .waiting taken [] true
      | false =>
        rw [List.append_nil]
        exact .left taken
  | writing taken queue frame held =>
    cases works with
    | true =>
      rw [List.append_cons]
      exact .waiting (taken ++ [frame]) queue held
    | false => exact .broken taken queue frame held (hworks rfl)
  | broken taken queue frame held hf => exact .ended taken (frame :: queue) held (.inl hf)
  | left =>
    have hall : Sent greeting failed ⟨[], .ended, greeting :: accepted, false⟩ (accepted ++ []) :=
      .ended accepted [] false (.inr ⟨rfl, rfl⟩)
    rwa [List.append_nil] at hall
  | ended taken lost held hover => exact .ended taken lost held hover

/-! ## What a caller is told -/

theorem offer_of_ended (h : u.writer = .ended) (frame : String) :
    u.offer frame = (u, .error .closed) :=
  if_pos h

theorem offer_of_room (h : u.writer ≠ .ended) (hroom : u.queue.length < capacity) (frame : String) :
    u.offer frame = ({ u with queue := u.queue ++ [frame] }, .ok ()) := by
  rw [offer, if_neg h, if_pos hroom]

theorem offer_of_full (h : u.writer ≠ .ended) (hroom : ¬u.queue.length < capacity)
    (frame : String) : u.offer frame = (u, .error .backpressure) := by
  rw [offer, if_neg h, if_neg hroom]

theorem offer_refused (hroom : u.queue.length ≤ capacity) (frame : String) :
    ((u.offer frame).2 = .error .backpressure ↔ u.writer ≠ .ended ∧ u.queue.length = capacity) ∧
      ((u.offer frame).2 = .error .closed ↔ u.writer = .ended) ∧
      ((u.offer frame).2 ≠ .ok () → (u.offer frame).1 = u ∧
        ((u.offer frame).2 = .error .backpressure ∨ (u.offer frame).2 = .error .closed)) := by
  by_cases hended : u.writer = .ended
  · simp [offer_of_ended hended, hended]
  · by_cases hlt : u.queue.length < capacity
    · simp [offer_of_room hended hlt, hended, Nat.ne_of_lt hlt]
    · simp [offer_of_full hended hlt, hended, Nat.le_antisymm hroom (Nat.le_of_not_lt hlt)]

theorem length_queue_offer (h : u.queue.length ≤ capacity) (frame : String) :
    (u.offer frame).1.queue.length ≤ capacity := by
  unfold offer
  split
  · exact h
  · split
    · rw [List.length_append]
      assumption
    · exact h

theorem length_queue_step (h : u.queue.length ≤ capacity) (works : Bool) :
    (u.step works).queue.length ≤ capacity := by
  unfold step
  split
  · split
    · rename_i hq
      rw [hq] at h
      exact Nat.le_of_succ_le h
    · split <;> exact h
  · split <;> exact h
  · exact Nat.zero_le _
  · exact h

/-! ## The end of the writing -/

/-- How many steps a writer has left whose client has been dropped: two for each frame that waits,
one for a frame that is being written, and two to close the connection. -/
def toDo (u : Uplink) : Nat :=
  match u.writer with
  | .waiting => 2 * u.queue.length + 2
  | .writing _ => 2 * u.queue.length + 3
  | .closing => 1
  | .ended => 0

theorem ended_of_toDo (h : u.toDo = 0) : u.writer = .ended := by
  unfold toDo at h
  cases hw : u.writer <;> rw [hw] at h <;> first | rfl | cases h

theorem toDo_step (hheld : u.held = false) (works : Bool) : (u.step works).toDo ≤ u.toDo - 1 := by
  unfold toDo step
  cases hw : u.writer with
  | waiting =>
    cases hq : u.queue with
    | nil => simp [hheld]
    | cons frame rest =>
      simp only [List.length_cons]
      omega
  | writing frame =>
    cases works with
    | true => simp
    | false => simp
  | closing => simp
  | ended => simp [hw]

theorem held_step (u : Uplink) (works : Bool) : (u.step works).held = u.held := by
  unfold step
  split
  · split
    · rfl
    · split <;> rfl
  · split <;> rfl
  · rfl
  · rfl

end Uplink

namespace Connection

/-! ## What may happen -/

/-- What may happen to a connection: somebody makes a call on its client, the writer takes its next
step, in which a frame can be written or not, the last reference to the client goes away, or
something happens on the reading side. -/
inductive Move where
  | call (call : Client.Call)
  | write (works : Bool)
  | drop
  | read (m : Downlink.Move)

/-- Nobody can make a call on a client that has been dropped. -/
def move (c : Connection) : Move → Connection
  | .call call => if c.uplink.held then (c.send call).1 else c
  | .write works => { c with uplink := c.uplink.step works }
  | .drop => c.dropClient
  | .read m => { c with downlink := c.downlink.move m }

/-- Any number of moves in any order. -/
def run (c : Connection) (ms : List Move) : Connection := ms.foldl move c

/-- The frame that is accepted in a move. -/
def accepts (c : Connection) : Move → List String
  | .call call =>
    if c.uplink.held ∧ (c.send call).2.toBool then [(ClientMessage.ofCall call).encode] else []
  | _ => []

/-- The frames that are accepted during a run, in the order in which they are accepted. -/
def accepted : Connection → List Move → List String
  | _, [] => []
  | c, m :: ms => c.accepts m ++ accepted (c.move m) ms

/-- Every frame that is written in a run can be written. -/
def Works (ms : List Move) : Prop := ∀ m ∈ ms, m ≠ .write false

/-- A step of the writer. -/
def Move.isWrite : Move → Bool
  | .write _ => true
  | _ => false

variable {c : Connection} {greeting : String} {failed : Prop} {frames : List String}

theorem sent_move (h : c.uplink.Sent greeting failed frames) {m : Move}
    (hfailed : m = .write false → failed) :
    (c.move m).uplink.Sent greeting failed (frames ++ c.accepts m) := by
  cases m with
  | call call =>
    cases hheld : c.uplink.held with
    | false => simpa [move, accepts, hheld] using h
    | true =>
      by_cases hended : c.uplink.writer = .ended
      · simpa [move, accepts, hheld, send, Uplink.offer_of_ended hended, Except.toBool] using h
      · by_cases hroom : c.uplink.queue.length < Uplink.capacity
        · simpa [move, accepts, hheld, send, Uplink.offer_of_room hended hroom, Except.toBool]
            using h.enqueue hheld hended _
        · simpa [move, accepts, hheld, send, Uplink.offer_of_full hended hroom, Except.toBool]
            using h
  | write works => exact (List.append_nil frames).symm ▸ h.step fun hw => hfailed (hw ▸ rfl)
  | drop => exact (List.append_nil frames).symm ▸ h.dropClient
  | read m => exact (List.append_nil frames).symm ▸ h

/-- **The frames of a connection after every run.** -/
theorem sent_run (h : c.uplink.Sent greeting failed frames) {ms : List Move}
    (hfailed : ¬Works ms → failed) :
    (c.run ms).uplink.Sent greeting failed (frames ++ c.accepted ms) := by
  induction ms generalizing c frames with
  | nil => exact (List.append_nil frames).symm ▸ h
  | cons m ms ih =>
    rw [accepted, ← List.append_assoc]
    refine ih (sent_move h fun hm => hfailed fun hworks => ?_) fun hnot => hfailed fun hworks => ?_
    · exact hworks m List.mem_cons_self hm
    · exact hnot fun m' hm' => hworks m' (List.mem_cons_of_mem m hm')

theorem room_move (h : c.uplink.queue.length ≤ Uplink.capacity) (m : Move) :
    (c.move m).uplink.queue.length ≤ Uplink.capacity := by
  cases m with
  | call call =>
    rw [move]
    split
    · exact Uplink.length_queue_offer h _
    · exact h
  | write works => exact Uplink.length_queue_step h works
  | drop => exact h
  | read m => exact h

theorem room_run (h : c.uplink.queue.length ≤ Uplink.capacity) (ms : List Move) :
    (c.run ms).uplink.queue.length ≤ Uplink.capacity :=
  List.foldlRecOn (motive := fun c => c.uplink.queue.length ≤ Uplink.capacity) ms move h
    fun _ h m _ => room_move h m

/-! ## After the client has been dropped -/

theorem dropped_move (h : c.uplink.held = false) (m : Move) :
    (c.move m).uplink.held = false ∧ c.accepts m = [] ∧
      (c.move m).uplink.toDo ≤ c.uplink.toDo - m.isWrite.toNat := by
  cases m with
  | call call => simp [move, accepts, h, Move.isWrite]
  | write works =>
    exact ⟨(Uplink.held_step c.uplink works).trans h, rfl, Uplink.toDo_step h works⟩
  | drop => exact ⟨rfl, rfl, Nat.le_refl _⟩
  | read m => exact ⟨h, rfl, Nat.le_refl _⟩

theorem dropped_run (h : c.uplink.held = false) (ms : List Move) :
    c.accepted ms = [] ∧
      (c.run ms).uplink.toDo ≤ c.uplink.toDo - ms.countP Move.isWrite := by
  induction ms generalizing c with
  | nil => exact ⟨rfl, Nat.le_refl _⟩
  | cons m ms ih =>
    obtain ⟨hheld, haccepts, htoDo⟩ := dropped_move h m
    obtain ⟨haccepted, hrun⟩ := ih hheld
    refine ⟨by rw [accepted, haccepts, haccepted, List.append_nil], Nat.le_trans hrun ?_⟩
    rw [List.countP_cons]
    cases hm : m.isWrite <;> simp [hm] at htoDo ⊢ <;> omega

end Connection

namespace Endpoint

theorem connect_eq_ok {e : Endpoint} {s : SessionSettings} {reach : Reach} {c : Connection}
    (h : e.connect s reach = .ok c) : c = { uplink := .greeted (greeting s).encode } := by
  simp only [connect] at h
  split at h <;> cases h
  rfl

end Endpoint

namespace Connection

/-- **The law of the frames.** However calls on a client, the steps of its writer and the end of the
client follow each other, and whether frames can be written or not,

* at most 64 frames wait, and they are the last of those that have been accepted;
* a call is refused for want of room exactly if the writer has not ended and 64 frames wait, as closed
  exactly if the writer has ended, and for no other reason, and then it changes nothing;
* what has been written is the greeting and the beginning of what has been accepted, in its order;
* unless a frame could not be written, the writer closes the connection only after the client has been
  dropped and all that was accepted has been written; and once the client has been dropped, so many
  steps of the writer bring that about, whatever else happens. -/
theorem frames_in_order (e : Endpoint) (s : SessionSettings) (reach : Reach) {first : Connection}
    (hconnect : e.connect s reach = .ok first) (ms : List Move) :
    let c := first.run ms
    let hello := (Endpoint.greeting s).encode
    let accepted := first.accepted ms
    (c.uplink.queue.length ≤ 64 ∧ c.uplink.queue <:+ accepted) ∧
      (∀ call,
        ((c.send call).2 = .error .backpressure ↔
          c.uplink.writer ≠ .ended ∧ c.uplink.queue.length = 64) ∧
        ((c.send call).2 = .error .closed ↔ c.uplink.writer = .ended) ∧
        ((c.send call).2 ≠ .ok () → (c.send call).1 = c ∧
          ((c.send call).2 = .error .backpressure ∨ (c.send call).2 = .error .closed))) ∧
      (∃ taken, c.uplink.written = hello :: taken ∧ taken <+: accepted) ∧
      (Works ms → c.uplink.writer = .closing ∨ c.uplink.writer = .ended →
        c.uplink.held = false ∧ c.uplink.written = hello :: accepted) ∧
      (Works ms → c.uplink.held = false → ∃ n, ∀ ms', Works ms' → n ≤ ms'.countP Move.isWrite →
        (c.run ms').uplink.writer = .ended ∧ (c.run ms').uplink.written = hello :: accepted) := by
  obtain rfl := Endpoint.connect_eq_ok hconnect
  intro c hello accepted
  have hsent (failed : Prop) (hfailed : ¬Works ms → failed) :
      c.uplink.Sent hello failed accepted := by
    simpa using sent_run (c := { uplink := .greeted hello }) (Uplink.sent_greeted hello failed) hfailed
  have hany := hsent _ id
  have hroom : c.uplink.queue.length ≤ Uplink.capacity := room_run (Nat.zero_le _) ms
  refine ⟨⟨hroom, hany.queue⟩, fun call => ?_, hany.written, fun hworks hw => ?_,
    fun hworks hheld => ⟨c.uplink.toDo, fun ms' hworks' hn => ?_⟩⟩
  · obtain ⟨hfull, hclosed, hrefused⟩ :=
      Uplink.offer_refused hroom (ClientMessage.ofCall call).encode
    exact ⟨hfull, hclosed, fun hno => ⟨congrArg (fun u => { c with uplink := u }) (hrefused hno).1,
      (hrefused hno).2⟩⟩
  · exact (hany.all_written (not_not_intro hworks) hw).symm
  · obtain ⟨hnone, htoDo⟩ := dropped_run hheld ms'
    have hended : (c.run ms').uplink.writer = .ended := Uplink.ended_of_toDo (by omega)
    have hlater : (c.run ms').uplink.Sent hello (¬Works ms) (accepted ++ c.accepted ms') :=
      sent_run (hsent (¬Works ms) id) (absurd hworks')
    rw [hnone, List.append_nil] at hlater
    exact ⟨hended, (hlater.all_written (not_not_intro hworks) (.inr hended)).1⟩

/-- A client that is dropped while its first frame is being written and its second one waits. -/
theorem frames_in_order_dropped :
    let settings : SessionSettings := ⟨"Bot1", ⟨"localhost", 25565, "1.21.4"⟩⟩
    let hello := (Endpoint.greeting settings).encode
    let first : Connection := { uplink := .greeted hello }
    let say (text : String) := Move.call (.chat text)
    let ms := [say "Hello!", .write true, say "How are you?", .drop, say "Is anybody there?",
      .write true, .write true, .write true, .write true]
    let frames := [(ClientMessage.chat "Hello!").encode, (ClientMessage.chat "How are you?").encode]
    Endpoint.root.connect settings .accepted = .ok first ∧ Works ms ∧
      first.accepted ms = frames ∧ (first.run ms).uplink.writer = .closing ∧
      (first.run ms).uplink.written = hello :: frames := by
  intro settings hello first say ms frames
  have hflaw : Endpoint.flaw? (Endpoint.root.urlFor settings) .accepted = none := by decide +kernel
  have hconnect : Endpoint.root.connect settings .accepted = .ok first := by
    simp only [Endpoint.connect, hflaw]
    rfl
  have hworks : Works ms := by simp [Works, ms, say]
  have hclosing : (first.run ms).uplink.writer = .closing := rfl
  obtain ⟨-, -, -, hwritten, -⟩ := frames_in_order Endpoint.root settings .accepted hconnect ms
  exact ⟨hconnect, hworks, rfl, hclosing, (hwritten hworks (.inl hclosing)).2⟩

end Connection

end BotFleet
