import BotFleet.Session.Handle

/-!
# From the session to the owner of its login

* `Settlement.settled_settle`, `Settlement.first_settle`: settling;
* `LoginHandle.answer`: what the owner of a login is told when it asks;
* `Delivery`: a handle and a settlement between which a verdict is on its way, or none yet;
* **`Delivery.answer_eq`**, **`Delivery.poll`**: asking gives exactly that verdict, and asking again
  gives it again;
* `Delivery.settle`, `Delivery.abandon`: the first verdict that is given is the one on its way.
-/

namespace BotFleet

namespace Settlement

@[simp] theorem settled_settle (s : Settlement) (v : Verdict) : (s.settle v).1.settled = true := by
  unfold settle
  by_cases h : s.settled = true <;> simp [h]

theorem first_settle (s : Settlement) (v : Verdict) : (s.settle v).2 = !s.settled := by
  unfold settle
  by_cases h : s.settled = true <;> simp [h]

theorem settle_of_settled {s : Settlement} (h : s.settled = true) (v : Verdict) :
    (s.settle v).1 = s := by
  simp [settle, h]

@[simp] theorem settled_abandon (s : Settlement) : s.abandon.settled = s.settled := by
  unfold abandon
  by_cases h : s.settled = true <;> simp [h]

@[simp] theorem settled_receive (s : Settlement) : s.receive.1.settled = s.settled := by
  unfold receive
  by_cases h : s.listening = true <;> simp only [h, if_true, if_false, Bool.false_eq_true]
  cases s.slot <;> rfl

end Settlement

namespace LoginHandle

/-- What the owner of a login is told when it asks. -/
def answer (h : LoginHandle) (s : Settlement) : Option Verdict := (h.poll s).2.2

@[simp] theorem settled_poll (h : LoginHandle) (s : Settlement) :
    (h.poll s).2.1.settled = s.settled := by
  unfold poll
  cases h.outcome with
  | some v => rfl
  | none =>
    cases h.receiving with
    | false => rfl
    | true =>
      have hs := Settlement.settled_receive s
      generalize s.receive = r at hs
      obtain ⟨t, a⟩ := r
      cases a <;> exact hs

end LoginHandle

/-- A handle and a settlement between which a verdict is on its way, or none yet. A verdict is on its
way from the moment it is given until the owner has taken it, after which the owner keeps it; a
session that is gone without giving one counts as ended early. -/
inductive Delivery : LoginHandle → Settlement → Option Verdict → Prop where
  | waiting : Delivery {} .start none
  | given (v : Verdict) : Delivery {} ⟨true, .holding v, true⟩ (some v)
  | taken (v : Verdict) : Delivery (.remember v) ⟨true, .spent, true⟩ (some v)
  | lost : Delivery {} ⟨false, .spent, true⟩ (some LoginHandle.endedEarly)
  | lostTaken : Delivery (.remember LoginHandle.endedEarly) ⟨false, .spent, true⟩ (some LoginHandle.endedEarly)

namespace Delivery

variable {h : LoginHandle} {s : Settlement} {v? : Option Verdict}

/-- **Asking gives the verdict that is on its way.** -/
theorem answer_eq (hd : Delivery h s v?) : h.answer s = v? := by
  cases hd <;> rfl

/-- **Asking loses nothing.** -/
theorem poll (hd : Delivery h s v?) : Delivery (h.poll s).1 (h.poll s).2.1 v? := by
  cases hd with
  | waiting => exact .waiting
  | given v => exact .taken v
  | taken v => exact .taken v
  | lost => exact .lostTaken
  | lostTaken => exact .lostTaken

theorem settle (hd : Delivery h s none) (v : Verdict) : Delivery h (s.settle v).1 (some v) := by
  cases hd
  exact .given v

theorem settle_again (hd : Delivery h s v?) (hs : s.settled = true) (v : Verdict) :
    Delivery h (s.settle v).1 v? := by
  rwa [Settlement.settle_of_settled hs]

theorem abandon (hd : Delivery h s none) : Delivery h s.abandon (some LoginHandle.endedEarly) := by
  cases hd
  exact .lost

/-- A success is given, while a failure may also stand for a session that is gone. -/
theorem settled_of_success (hd : Delivery h s (some .success)) : s.settled = true := by
  generalize hv : some Verdict.success = v? at hd
  cases hd with
  | waiting => cases hv
  | given v => rfl
  | taken v => rfl
  | lost => cases hv
  | lostTaken => cases hv

/-- A verdict that was never given stands for a session that is gone. -/
theorem of_unsettled (hd : Delivery h s v?) (hs : s.settled = false) :
    v? = none ∨ v? = some LoginHandle.endedEarly := by
  cases hd with
  | waiting => exact .inl rfl
  | lost | lostTaken => exact .inr rfl
  | given | taken => cases hs

theorem settled_of_none (hd : Delivery h s none) : s.settled = false := by
  cases hd
  rfl

end Delivery

end BotFleet
