import BotFleet.Gateway.Downlink

/-!
# The events of a gateway's stream

A session receives the events of what its gateway sends, in their order, up to the end of the
stream, however its reader and it take turns.

* `Inbound.said?`, `Inbound.Ends`, `Inbound.Stream`: what a row of items stands for;
* **`Inbound.stream_iff`**: a row of items comes to exactly that;
* `Downlink.Move`, `Downlink.run`: what may happen between a gateway and a session that receives, in
  any order;
* `Downlink.Carries`, **`Downlink.Carries.move`**: what has been read has been received, waits for
  its receiver, or is being handed over;
* `Downlink.load`: what is left to do, which a reader and a receiver that take turns bring to an
  end;
* **`Downlink.received_of_atRest`**, **`Downlink.received_drain`**: in the end all has been received,
  and the two come to that end;
* **`Downlink.stream_delivered`**: the law of the stream.
-/

namespace BotFleet

namespace Inbound

/-! ## What a row of items stands for -/

/-- The event of a text. A text that is no message has none, and neither has a mere position. -/
def said? : Inbound → Option Client.Event
  | text frame => (ServerMessage.decode? frame).toOption.bind ServerMessage.event?
  | _ => none

/-- An item ends the stream with an event: a message that says so, a closing frame, which may give a
reason, an error of the transport, or the end of the connection. -/
inductive Ends : Inbound → Client.Event → Prop where
  | said (frame reason : String) : ServerMessage.decode? frame = .ok (.ended reason) →
      Ends (.text frame) (.ended reason)
  | closed (reason : String) : reason ≠ "" → Ends (.closing (some reason)) (.ended reason)
  | closedEmpty : Ends (.closing (some "")) (.ended "connection closed")
  | closedSilently : Ends (.closing none) (.ended "connection closed")
  | broken (message : String) : Ends (.broken message) (.failed message)
  | hungUp : Ends .hungUp (.ended "connection closed")

/-- The events that a row of items stands for: those of its texts, up to the first item that ends
the stream. -/
inductive Stream : List Inbound → List Client.Event → Prop where
  | running (items : List Inbound) : (∀ x ∈ items, ∀ e, ¬x.Ends e) →
      Stream items (items.filterMap said?)
  | ended (before : List Inbound) (item : Inbound) (after : List Inbound) (e : Client.Event) :
      (∀ x ∈ before, ∀ e, ¬x.Ends e) → item.Ends e →
      Stream (before ++ item :: after) (before.filterMap said? ++ [e])

theorem Ends.event? {item : Inbound} {e : Client.Event} (h : item.Ends e) :
    item.event? = some e ∧ item.isLast = true := by
  cases h with
  | said frame reason hm => simp [Inbound.event?, isLast, farewell?, message?, hm, Except.toOption,
      ServerMessage.event?, ServerMessage.isEnd]
  | closed reason hr => simp [Inbound.event?, isLast, farewell?, reasonOf, hr]
  | _ => exact ⟨rfl, rfl⟩

theorem ends_of_isEnd {frame : String} {m : ServerMessage}
    (hm : ServerMessage.decode? frame = .ok m) (h : m.isEnd = true) :
    ∃ e, (text frame).Ends e := by
  cases m with
  | ended reason => exact ⟨_, .said frame reason hm⟩
  | _ => cases h

theorem isLast_iff (item : Inbound) : item.isLast = true ↔ ∃ e, item.Ends e := by
  refine ⟨fun h => ?_, fun ⟨e, he⟩ => he.event?.2⟩
  cases item with
  | text frame =>
    cases hm : ServerMessage.decode? frame with
    | error flaw => simp [isLast, farewell?, message?, hm, Except.toOption] at h
    | ok m =>
      exact ends_of_isEnd hm (by simpa [isLast, farewell?, message?, hm, Except.toOption] using h)
  | silent => cases h
  | closing reason =>
    cases reason with
    | none => exact ⟨_, .closedSilently⟩
    | some reason =>
      by_cases hr : reason = ""
      · subst hr
        exact ⟨_, .closedEmpty⟩
      · exact ⟨_, .closed reason hr⟩
  | broken message => exact ⟨_, .broken message⟩
  | hungUp => exact ⟨_, .hungUp⟩

theorem not_ends_iff (item : Inbound) : (∀ e, ¬item.Ends e) ↔ item.isLast = false := by
  rw [← not_exists, ← isLast_iff, Bool.not_eq_true]

theorem event?_of_open {item : Inbound} (h : item.isLast = false) : item.event? = item.said? := by
  cases item <;> first | rfl | cases h

theorem filterMap_of_open {items : List Inbound} (h : ∀ x ∈ items, x.isLast = false) :
    items.filterMap event? = items.filterMap said? := by
  induction items with
  | nil => rfl
  | cons x items ih =>
    obtain ⟨hx, hitems⟩ := List.forall_mem_cons.mp h
    rw [List.filterMap_cons, List.filterMap_cons, event?_of_open hx, ih hitems]

theorem filterMap_of_event {item : Inbound} {e : Client.Event} (h : item.event? = some e) :
    [item].filterMap event? = [e] := by
  rw [List.filterMap_cons, h, List.filterMap_nil]

theorem heard_append {before : List Inbound} (h : ∀ x ∈ before, x.isLast = false)
    (rest : List Inbound) : heard (before ++ rest) = before ++ heard rest := by
  induction before with
  | nil => rfl
  | cons x before ih =>
    obtain ⟨hx, hbefore⟩ := List.forall_mem_cons.mp h
    rw [List.cons_append, heard, hx, ih hbefore]
    rfl

theorem events_of_open {items : List Inbound} (h : ∀ x ∈ items, x.isLast = false) :
    events items = items.filterMap event? := by
  have hheard := heard_append h []
  rw [List.append_nil, heard, List.append_nil] at hheard
  rw [events, hheard]

theorem events_of_last {before : List Inbound} (h : ∀ x ∈ before, x.isLast = false)
    {item : Inbound} (hitem : item.isLast = true) (after : List Inbound) :
    events (before ++ item :: after) = (before ++ [item]).filterMap event? := by
  rw [events, heard_append h, heard, hitem]
  rfl

/-- **A row of items comes to exactly the events that it stands for.** -/
theorem stream_iff (items : List Inbound) (es : List Client.Event) :
    Stream items es ↔ es = events items := by
  constructor
  · rintro (⟨items, hopen⟩ | ⟨before, item, after, e, hopen, hends⟩)
    · have hopen' : ∀ x ∈ items, x.isLast = false := fun x hx => (not_ends_iff x).mp (hopen x hx)
      rw [events_of_open hopen', filterMap_of_open hopen']
    · have hopen' : ∀ x ∈ before, x.isLast = false := fun x hx => (not_ends_iff x).mp (hopen x hx)
      obtain ⟨hevent, hlast⟩ := hends.event?
      rw [events_of_last hopen' hlast, List.filterMap_append, filterMap_of_open hopen',
        filterMap_of_event hevent]
  · rintro rfl
    cases hfind : items.find? isLast with
    | none =>
      have hopen : ∀ x ∈ items, x.isLast = false := by simpa using hfind
      rw [events_of_open hopen, filterMap_of_open hopen]
      exact .running items fun x hx => (not_ends_iff x).mpr (hopen x hx)
    | some item =>
      obtain ⟨hlast, before, after, rfl, hbefore⟩ := List.find?_eq_some_iff_append.mp hfind
      have hopen : ∀ x ∈ before, x.isLast = false := by simpa using hbefore
      obtain ⟨e, he⟩ := (isLast_iff item).mp hlast
      rw [events_of_last hopen hlast, List.filterMap_append, filterMap_of_open hopen,
        filterMap_of_event he.event?.1]
      exact .ended before item after e (fun x hx => (not_ends_iff x).mpr (hopen x hx)) he

/-- **An item that says nothing and ends nothing changes nothing**: a text that is no message, a
position, a frame without a text. -/
theorem stream_skip (before : List Inbound) {item : Inbound} (after : List Inbound)
    (hsaid : item.said? = none) (hends : ∀ e, ¬item.Ends e) (es : List Client.Event) :
    Stream (before ++ item :: after) es ↔ Stream (before ++ after) es := by
  have hlast := (not_ends_iff item).mp hends
  have hevents : events (before ++ item :: after) = events (before ++ after) := by
    induction before with
    | nil =>
      rw [List.nil_append, List.nil_append, events, heard, hlast, List.filterMap_cons,
        (event?_of_open hlast).trans hsaid]
      rfl
    | cons x before ih =>
      rw [List.cons_append, List.cons_append, events, events, heard, heard, List.filterMap_cons,
        List.filterMap_cons]
      cases x.isLast with
      | true => rfl
      | false =>
        rw [events, events] at ih
        simp only [Bool.false_eq_true, if_false, ih]
  rw [stream_iff, stream_iff, hevents]

theorem ne_ended_of_said {item : Inbound} (h : ∀ e, ¬item.Ends e) (reason : String) :
    item.said? ≠ some (.ended reason) := by
  intro hsaid
  cases item with
  | text frame =>
    obtain ⟨m, hm, hevent⟩ := Option.bind_eq_some_iff.mp hsaid
    cases m with
    | ended reason' =>
      cases hd : ServerMessage.decode? frame with
      | error flaw => rw [hd] at hm; cases hm
      | ok m' =>
        rw [hd] at hm
        cases hm
        exact h _ (.said frame reason' hd)
    | _ => cases hevent
  | _ => cases hsaid

/-- **An end is the last event of its stream.** -/
theorem Stream.last_of_ended {items : List Inbound} {es : List Client.Event} (h : Stream items es)
    {i : Nat} {reason : String} (hi : es[i]? = some (.ended reason)) : i + 1 = es.length := by
  have hnone {items : List Inbound} (hopen : ∀ x ∈ items, ∀ e, ¬x.Ends e) :
      .ended reason ∉ items.filterMap said? := by
    intro hmem
    obtain ⟨x, hx, hsaid⟩ := List.mem_filterMap.mp hmem
    exact ne_ended_of_said (hopen x hx) reason hsaid
  cases h with
  | running items hopen => exact absurd (List.mem_of_getElem? hi) (hnone hopen)
  | ended before item after e hopen hends =>
    rw [List.length_append, List.length_singleton]
    by_cases hlt : i < (before.filterMap said?).length
    · rw [List.getElem?_append_left hlt] at hi
      exact absurd (List.mem_of_getElem? hi) (hnone hopen)
    · have hbound := (List.getElem?_eq_some_iff.mp hi).1
      rw [List.length_append, List.length_singleton] at hbound
      omega

end Inbound

namespace Downlink

/-! ## What may happen -/

/-- What may happen between a gateway and a session that receives: an item arrives, the reader takes
its next step, or the session receives an event if one waits. -/
inductive Move where
  | arrive (item : Inbound)
  | read
  | receive

def move (d : Downlink) : Move → Downlink
  | .arrive item => d.arrive item
  | .read => d.step
  | .receive => d.receive.1

/-- What the session receives in a move. -/
def gets (d : Downlink) : Move → List Client.Event
  | .receive => d.receive.2.toList
  | _ => []

/-- What arrives in a move. -/
def Move.brings : Move → List Inbound
  | .arrive item => [item]
  | _ => []

/-- Any number of moves in any order. -/
def run (d : Downlink) (ms : List Move) : Downlink := ms.foldl move d

/-- What the session receives during a run. -/
def received : Downlink → List Move → List Client.Event
  | _, [] => []
  | d, m :: ms => d.gets m ++ received (d.move m) ms

/-- What arrives during a run. -/
def arrivals (ms : List Move) : List Inbound := ms.flatMap Move.brings

theorem run_append (d : Downlink) (ms ms' : List Move) :
    d.run (ms ++ ms') = (d.run ms).run ms' :=
  List.foldl_append

theorem received_append (d : Downlink) (ms ms' : List Move) :
    d.received (ms ++ ms') = d.received ms ++ (d.run ms).received ms' := by
  induction ms generalizing d with
  | nil => rfl
  | cons m ms ih =>
    rw [List.cons_append, received, received, ih, List.append_assoc]
    rfl

/-! ## What is on its way -/

/-- The event that the reader is handing over. -/
def pending (d : Downlink) : List Client.Event :=
  match d.reader with
  | .delivering e _ => [e]
  | _ => []

/-- The reader has read the last item that it reads. -/
def hasEnded (d : Downlink) : Bool :=
  match d.reader with
  | .reading => false
  | .delivering _ last => last
  | .ended => true

/-- How a row of items has been read up to some point, and whether that was its end. -/
structure ReadUpTo (items handled incoming : List Inbound) (ended : Bool) : Prop where
  split : ∃ rest, items = handled ++ rest ∧ (ended = false → rest = incoming)
  running : ended = false → ∀ x ∈ handled, x.isLast = false
  ended : ended = true → ∃ before item, handled = before ++ [item] ∧
    (∀ x ∈ before, x.isLast = false) ∧ item.isLast = true

/-- What has been read of the items that have arrived has been received, waits for its receiver, or
is being handed over. -/
structure Carries (d : Downlink) (items : List Inbound) (got : List Client.Event) : Prop where
  receiving : d.receiving = true
  room : d.waiting.length ≤ capacity
  read : ∃ handled, ReadUpTo items handled d.incoming d.hasEnded ∧
    got ++ d.waiting ++ d.pending = handled.filterMap Inbound.event?

variable {d : Downlink} {items : List Inbound} {got : List Client.Event}

theorem carries_start : Carries {} [] [] :=
  ⟨rfl, Nat.zero_le _, [], ⟨⟨[], rfl, fun _ => rfl⟩, by simp, nofun⟩, rfl⟩

/-- What looking at an item comes to. -/
structure Looked (d : Downlink) (item : Inbound) (d' : Downlink) : Prop where
  incoming : d'.incoming = d.incoming
  waiting : d'.waiting = d.waiting
  receiving : d'.receiving = d.receiving
  pending : d'.pending = item.event?.toList
  hasEnded : d'.hasEnded = item.isLast

theorem notePosition_eq (d : Downlink) (m : ServerMessage) :
    ∃ p, d.notePosition m = { d with position := p } := by
  unfold notePosition
  cases m.position? with
  | none => exact ⟨d.position, rfl⟩
  | some p => exact ⟨some p, rfl⟩

theorem looked (d : Downlink) (hd : d.reader = .reading) (item : Inbound) :
    Looked d item (d.look item) := by
  cases hf : item.farewell? with
  | some e =>
    have hlook : d.look item = { d with reader := .delivering e true } := by simp only [look, hf]
    rw [hlook]
    exact ⟨rfl, rfl, rfl, by simp [Downlink.pending, Inbound.event?, hf],
      by simp [Downlink.hasEnded, Inbound.isLast, hf]⟩
  | none =>
    cases hm : item.message? with
    | none =>
      have hlook : d.look item = d := by simp only [look, hf, hm]
      rw [hlook]
      exact ⟨rfl, rfl, rfl, by simp [Downlink.pending, Inbound.event?, hf, hm, hd],
        by simp [Downlink.hasEnded, Inbound.isLast, hf, hm, hd]⟩
    | some m =>
      have hevent : item.event? = m.event? := by simp [Inbound.event?, hf, hm]
      have hlast : item.isLast = m.isEnd := by simp [Inbound.isLast, hf, hm]
      obtain ⟨p, hp⟩ := d.notePosition_eq m
      cases he : m.event? with
      | some e =>
        have hlook : d.look item = { d with position := p, reader := .delivering e m.isEnd } := by
          simp only [look, hf, hm, he, hp]
        rw [hlook]
        exact ⟨rfl, rfl, rfl, by simp [Downlink.pending, hevent, he],
          by simp [Downlink.hasEnded, hlast]⟩
      | none =>
        have hlook : d.look item = { d with position := p } := by
          simp only [look, hf, hm, he, hp]
        -- only a position is no event, and a position ends nothing
        have hend : m.isEnd = false := by cases m <;> first | rfl | cases he
        rw [hlook]
        exact ⟨rfl, rfl, rfl, by simp [Downlink.pending, hevent, he, hd],
          by simp [Downlink.hasEnded, hlast, hend, hd]⟩

/-! ## What the reader does next -/

/-- The reader looks at the next item. -/
def next (d : Downlink) (item : Inbound) (rest : List Inbound) : Downlink :=
  ({ d with incoming := rest } : Downlink).look item

theorem step_of_item {item : Inbound} {rest : List Inbound} (hd : d.reader = .reading)
    (hi : d.incoming = item :: rest) : d.step = d.next item rest := by
  simp only [step, next, hd, hi]

theorem step_of_idle (hd : d.reader = .reading) (hi : d.incoming = []) : d.step = d := by
  simp only [step, hd, hi]

theorem step_of_delivering {e : Client.Event} {last : Bool} (hd : d.reader = .delivering e last) :
    d.step = d.deliver e last := by
  simp only [step, hd]

theorem step_of_ended (hd : d.reader = .ended) : d.step = d := by
  simp only [step, hd]

theorem deliver_of_room (hr : d.receiving = true) (hroom : d.waiting.length < capacity)
    (e : Client.Event) (last : Bool) : d.deliver e last =
      { d with waiting := d.waiting ++ [e], reader := if last then .ended else .reading } := by
  rw [deliver, if_neg (by rw [hr]; decide), if_pos hroom]

theorem deliver_of_full (hr : d.receiving = true) (hroom : ¬d.waiting.length < capacity)
    (e : Client.Event) (last : Bool) : d.deliver e last = d := by
  rw [deliver, if_neg (by rw [hr]; decide), if_neg hroom]

theorem looked_next (hd : d.reader = .reading) (item : Inbound) (rest : List Inbound) :
    Looked { d with incoming := rest } item (d.next item rest) :=
  looked { d with incoming := rest } hd item

theorem Carries.arrive (h : d.Carries items got) (item : Inbound) :
    (d.arrive item).Carries (items ++ [item]) got := by
  obtain ⟨handled, ⟨⟨rest, rfl, hrest⟩, hrunning, hended⟩, hevents⟩ := h.read
  refine ⟨h.receiving, h.room, handled, ⟨⟨rest ++ [item], List.append_assoc .., fun hopen => ?_⟩,
    hrunning, hended⟩, hevents⟩
  rw [hrest hopen]
  rfl

theorem Carries.next (h : d.Carries items got) (hd : d.reader = .reading) {item : Inbound}
    {rest : List Inbound} (hi : d.incoming = item :: rest) :
    (d.next item rest).Carries items got := by
  have hl := looked_next hd item rest
  have hopen : d.hasEnded = false := by rw [hasEnded, hd]
  obtain ⟨handled, ⟨⟨left, rfl, hleft⟩, hrunning, -⟩, hevents⟩ := h.read
  obtain rfl := hleft hopen
  have hhandled := hrunning hopen
  refine ⟨hl.receiving.trans h.receiving, by rw [hl.waiting]; exact h.room, handled ++ [item],
    ⟨⟨rest, ?_, fun _ => hl.incoming.symm⟩, fun hlast => ?_, fun hlast => ?_⟩, ?_⟩
  · rw [hi, List.append_assoc]
    rfl
  · rw [hl.hasEnded] at hlast
    simpa [or_imp, forall_and] using ⟨hhandled, hlast⟩
  · exact ⟨handled, item, rfl, hhandled, hl.hasEnded ▸ hlast⟩
  · have hnone : d.pending = [] := by rw [pending, hd]
    rw [hnone, List.append_nil] at hevents
    rw [hl.waiting, hl.pending, List.filterMap_append, ← hevents]
    cases he : item.event? <;> simp [he]

theorem Carries.deliver (h : d.Carries items got) {e : Client.Event} {last : Bool}
    (hd : d.reader = .delivering e last) : (d.deliver e last).Carries items got := by
  by_cases hroom : d.waiting.length < capacity
  · rw [deliver_of_room h.receiving hroom]
    obtain ⟨handled, hread, hevents⟩ := h.read
    have hended : d.hasEnded = last := by rw [hasEnded, hd]
    have hpending : d.pending = [e] := by rw [pending, hd]
    rw [hended] at hread
    rw [hpending, List.append_assoc] at hevents
    refine ⟨h.receiving, ?_, handled, ?_, ?_⟩
    · rw [List.length_append, List.length_singleton]
      exact hroom
    · cases last <;> exact hread
    · cases last <;> exact (List.append_nil _).trans hevents
  · rwa [deliver_of_full h.receiving hroom]

theorem Carries.step (h : d.Carries items got) : d.step.Carries items got := by
  cases hd : d.reader with
  | reading =>
    cases hi : d.incoming with
    | nil => rwa [step_of_idle hd hi]
    | cons item rest => rw [step_of_item hd hi]; exact h.next hd hi
  | delivering e last => rw [step_of_delivering hd]; exact h.deliver hd
  | ended => rwa [step_of_ended hd]

theorem Carries.receive (h : d.Carries items got) :
    d.receive.1.Carries items (got ++ d.receive.2.toList) := by
  unfold Downlink.receive
  cases hw : d.waiting with
  | nil => exact (List.append_nil got).symm ▸ h
  | cons e rest =>
    obtain ⟨handled, hread, hevents⟩ := h.read
    have hroom := h.room
    rw [hw] at hevents hroom
    refine ⟨h.receiving, Nat.le_of_succ_le hroom, handled, hread, ?_⟩
    rw [← hevents]
    simp [pending]

/-- **Whatever happens, nothing is lost, doubled or made up.** -/
theorem Carries.move (h : d.Carries items got) (m : Move) :
    (d.move m).Carries (items ++ m.brings) (got ++ d.gets m) := by
  cases m with
  | arrive item => exact (List.append_nil got).symm ▸ h.arrive item
  | read => exact (List.append_nil got).symm ▸ (List.append_nil items).symm ▸ h.step
  | receive => exact (List.append_nil items).symm ▸ h.receive

theorem Carries.run (h : d.Carries items got) (ms : List Move) :
    (d.run ms).Carries (items ++ arrivals ms) (got ++ d.received ms) := by
  induction ms generalizing d items got with
  | nil => simpa [arrivals, received, Downlink.run] using h
  | cons m ms ih =>
    have hnext := ih (h.move m)
    rw [List.append_assoc, List.append_assoc] at hnext
    exact hnext

/-! ## What the items come to -/

theorem ReadUpTo.prefix_events {handled incoming : List Inbound} {ended : Bool}
    (h : ReadUpTo items handled incoming ended) :
    handled.filterMap Inbound.event? <+: Inbound.events items := by
  obtain ⟨⟨rest, rfl, -⟩, hrunning, hended⟩ := h
  cases ended with
  | false =>
    rw [Inbound.events, Inbound.heard_append (hrunning rfl), List.filterMap_append]
    exact List.prefix_append ..
  | true =>
    obtain ⟨before, item, rfl, hbefore, hlast⟩ := hended rfl
    refine ⟨[], ?_⟩
    rw [List.append_nil, List.append_assoc, List.singleton_append,
      Inbound.events_of_last hbefore hlast]

theorem ReadUpTo.events_eq {handled incoming : List Inbound} {ended : Bool}
    (h : ReadUpTo items handled incoming ended) (hall : ended = false → incoming = []) :
    Inbound.events items = handled.filterMap Inbound.event? ∧
      (ended = true ↔ ∃ x ∈ items, x.isLast = true) := by
  obtain ⟨⟨rest, rfl, hrest⟩, hrunning, hended⟩ := h
  cases ended with
  | false =>
    obtain rfl : rest = [] := (hrest rfl).trans (hall rfl)
    rw [List.append_nil]
    refine ⟨Inbound.events_of_open (hrunning rfl), nofun, ?_⟩
    rintro ⟨x, hx, hlast⟩
    rw [hrunning rfl x hx] at hlast
    cases hlast
  | true =>
    obtain ⟨before, item, rfl, hbefore, hlast⟩ := hended rfl
    rw [List.append_assoc, List.singleton_append]
    exact ⟨Inbound.events_of_last hbefore hlast rest, fun _ => ⟨item, by simp, hlast⟩, fun _ => rfl⟩

/-- Nothing is left to do: the reader has nothing to read or to hand over, and nothing waits. -/
structure AtRest (d : Downlink) : Prop where
  reader : d.step = d
  waiting : d.waiting = []

theorem Carries.all_read (h : d.Carries items got) (hrest : d.AtRest) :
    d.pending = [] ∧ (d.hasEnded = false → d.incoming = []) ∧
      (d.isOver = true ↔ d.hasEnded = true) := by
  have hstep := hrest.reader
  cases hd : d.reader with
  | reading =>
    cases hi : d.incoming with
    | nil => simp [pending, hasEnded, isOver, h.receiving, hd]
    | cons item rest =>
      rw [step_of_item hd hi] at hstep
      have hshort := (looked_next hd item rest).incoming
      rw [hstep, hi] at hshort
      exact absurd hshort (List.cons_ne_self item rest)
  | delivering e last =>
    have hroom : d.waiting.length < capacity := by rw [hrest.waiting]; decide
    rw [step_of_delivering hd, deliver_of_room h.receiving hroom] at hstep
    have hread := congrArg Downlink.reader hstep
    rw [hd] at hread
    cases last <;> cases hread
  | ended => simp [pending, hasEnded, isOver, h.receiving, hrest.waiting, hd]

/-! ## The end of the reading -/

/-- What is left to do: an item takes two steps, and an event is handed over and received. -/
def load (d : Downlink) : Nat := 2 * d.incoming.length + d.pending.length + d.waiting.length

theorem atRest_of_load (h : d.load = 0) : d.AtRest := by
  obtain ⟨hincoming, hwaiting⟩ : d.incoming = [] ∧ d.waiting = [] := by
    unfold load at h
    exact ⟨List.length_eq_zero_iff.mp (by omega), List.length_eq_zero_iff.mp (by omega)⟩
  refine ⟨?_, hwaiting⟩
  cases hd : d.reader with
  | reading => exact step_of_idle hd hincoming
  | delivering e last => simp [load, pending, hd] at h
  | ended => exact step_of_ended hd

theorem load_receive (d : Downlink) : d.receive.1.load = d.load - d.receive.2.toList.length := by
  unfold receive
  cases hw : d.waiting with
  | nil => rfl
  | cons e rest => simp [load, pending, hw]

/-- A step of the reader adds nothing to what is left to do, and takes something away unless an
event waits then or there is nothing to do. -/
theorem Carries.load_step (h : d.Carries items got) : d.step.load ≤ d.load ∧
    (d.step.load < d.load ∨ d.step.waiting ≠ [] ∨ d.step.AtRest) := by
  -- where the step does nothing, an event waits or nothing is left to do
  have hidle (hsame : d.step = d) : d.step.load ≤ d.load ∧
      (d.step.load < d.load ∨ d.step.waiting ≠ [] ∨ d.step.AtRest) := by
    rw [hsame]
    refine ⟨Nat.le_refl _, .inr ?_⟩
    by_cases hw : d.waiting = []
    · exact .inr ⟨hsame, hw⟩
    · exact .inl hw
  cases hd : d.reader with
  | reading =>
    cases hi : d.incoming with
    | nil => exact hidle (step_of_idle hd hi)
    | cons item rest =>
      have hl := looked_next hd item rest
      have hevent : item.event?.toList.length ≤ 1 := by cases item.event? <;> simp
      rw [step_of_item hd hi]
      simp only [load, hl.incoming, hl.pending, hl.waiting, hi, List.length_cons]
      omega
  | delivering e last =>
    by_cases hroom : d.waiting.length < capacity
    · rw [step_of_delivering hd, deliver_of_room h.receiving hroom]
      refine ⟨?_, .inr (.inl (by simp))⟩
      cases last <;> simp [load, pending, hd] <;> omega
    · exact hidle ((step_of_delivering hd).trans (deliver_of_full h.receiving hroom e last))
  | ended => exact hidle (step_of_ended hd)

/-- The reader and the receiver take turns. -/
def turns (n : Nat) : List Move := (List.replicate n [Move.read, Move.receive]).flatten

theorem arrivals_turns (n : Nat) : arrivals (turns n) = [] := by
  induction n with
  | zero => rfl
  | succ n ih => exact ih

theorem run_turns_succ (d : Downlink) (n : Nat) :
    d.run (turns (n + 1)) = d.step.receive.1.run (turns n) :=
  rfl

theorem drainIn_eq (n : Nat) (d : Downlink) (got : List Client.Event) :
    drainIn n d got = (d.run (turns n), got ++ d.received (turns n)) := by
  induction n generalizing d got with
  | zero => simp [drainIn, turns, run, received]
  | succ n ih =>
    have hgot : d.received (turns (n + 1)) =
        d.step.receive.2.toList ++ d.step.receive.1.received (turns n) := rfl
    rw [hgot, run_turns_succ, ← List.append_assoc]
    exact ih d.step.receive.1 (got ++ d.step.receive.2.toList)

theorem AtRest.run_turns (h : d.AtRest) (n : Nat) : (d.run (turns n)).AtRest := by
  induction n with
  | zero => exact h
  | succ n ih =>
    have hturn : d.step.receive.1 = d := by rw [h.reader, receive, h.waiting]
    rw [run_turns_succ, hturn]
    exact ih

/-- **Taking turns comes to an end.** -/
theorem Carries.atRest_turns (h : d.Carries items got) {n : Nat} (hn : d.load ≤ n) :
    (d.run (turns n)).AtRest := by
  induction n generalizing d got with
  | zero => exact atRest_of_load (Nat.le_zero.mp hn)
  | succ n ih =>
    have hnext := h.step.receive
    have hload := load_receive d.step
    rw [run_turns_succ]
    obtain ⟨hle, hless | hwaits | hrest⟩ := h.load_step
    · exact ih hnext (by omega)
    · have hone : d.step.receive.2.toList.length = 1 := by
        obtain ⟨e, rest, hw⟩ := List.exists_cons_of_ne_nil hwaits
        simp [Downlink.receive, hw]
      exact ih hnext (by omega)
    · have hsame : d.step.receive.1 = d.step := by rw [Downlink.receive, hrest.waiting]
      rw [hsame]
      exact hrest.run_turns n

/-! ## The law of the stream -/

section Run

variable (ms : List Move)

theorem carries_run : (run {} ms).Carries (arrivals ms) (received {} ms) := carries_start.run ms

/-- What a session has received is the beginning of the events. -/
theorem received_prefix_events : received {} ms <+: Inbound.events (arrivals ms) := by
  obtain ⟨handled, hread, hevents⟩ := (carries_run ms).read
  have hprefix := hread.prefix_events
  rw [← hevents, List.append_assoc] at hprefix
  exact (List.prefix_append ..).trans hprefix

/-- **When nothing is left to do it is all of them**, and the stream is over exactly if an item has
ended it. -/
theorem received_of_atRest (hrest : (run {} ms).AtRest) :
    received {} ms = Inbound.events (arrivals ms) ∧
      ((run {} ms).isOver = true ↔ ∃ item ∈ arrivals ms, ∃ e, item.Ends e) := by
  obtain ⟨handled, hread, hevents⟩ := (carries_run ms).read
  obtain ⟨hpending, hall, hover⟩ := (carries_run ms).all_read hrest
  obtain ⟨hsame, hended⟩ := hread.events_eq hall
  rw [hrest.waiting, hpending, List.append_nil, List.append_nil] at hevents
  refine ⟨hevents.trans hsame.symm, hover.trans (hended.trans ?_)⟩
  simp only [Inbound.isLast_iff]

/-- **The reader and the session come to that point by taking turns.** -/
theorem received_drain : (run {} ms).drain.1.AtRest ∧
    received {} ms ++ (run {} ms).drain.2 = Inbound.events (arrivals ms) := by
  let d := run {} ms
  let n := 2 * d.incoming.length + d.waiting.length + 1
  have hdrain : d.drain = (run {} (ms ++ turns n), d.received (turns n)) := by
    rw [drain, drainIn_eq, List.nil_append, run_append]
  have hload : d.load ≤ n := by
    have hpending : d.pending.length ≤ 1 := by unfold pending; cases d.reader <;> simp
    simp only [load, n]
    omega
  have hrest : (run {} (ms ++ turns n)).AtRest := by
    rw [run_append]
    exact (carries_run ms).atRest_turns hload
  have harrivals : arrivals (ms ++ turns n) = arrivals ms := by
    rw [arrivals, List.flatMap_append]
    exact (congrArg (arrivals ms ++ ·) (arrivals_turns n)).trans (List.append_nil _)
  have hall := (received_of_atRest _ hrest).1
  rw [received_append, harrivals] at hall
  show d.drain.1.AtRest ∧ received {} ms ++ d.drain.2 = _
  rw [hdrain]
  exact ⟨hrest, hall⟩

end Run

/-- **The law of the stream.** Whatever a gateway sends, and however its reader and a session that
receives take turns,

* what the session has received is the beginning of the events that the items which have arrived
  stand for, and no more than so many events wait for it;
* when nothing is left to do it has received all of them, and the stream is over exactly if an item
  has ended it;
* from wherever they are, they come to that point by taking turns;
* an end is the last of the events;
* a text that is no message, or one that tells a position, might as well not have arrived. -/
theorem stream_delivered (ms : List Move) :
    let d := run {} ms
    let items := arrivals ms
    let got := received {} ms
    ∃ events, (∀ es, Inbound.Stream items es ↔ es = events) ∧
      got <+: events ∧ d.waiting.length ≤ 32 ∧
      (d.AtRest → got = events ∧ (d.isOver = true ↔ ∃ item ∈ items, ∃ e, item.Ends e)) ∧
      (d.drain.1.AtRest ∧ got ++ d.drain.2 = events) ∧
      (∀ i reason, events[i]? = some (.ended reason) → i + 1 = events.length) ∧
      ∀ before item after, items = before ++ item :: after →
        item.said? = none → (∀ e, ¬item.Ends e) → Inbound.Stream (before ++ after) events := by
  intro d items got
  have hstream : Inbound.Stream items (Inbound.events items) := (Inbound.stream_iff items _).mpr rfl
  refine ⟨Inbound.events items, Inbound.stream_iff items, received_prefix_events ms,
    (carries_run ms).room, received_of_atRest ms, received_drain ms,
    fun i reason hi => hstream.last_of_ended hi, ?_⟩
  intro before item after hitems hsaid hends
  rw [hitems] at hstream ⊢
  exact (Inbound.stream_skip before after hsaid hends _).mp hstream

end Downlink

end BotFleet
