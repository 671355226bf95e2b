import BotFleet.Effect

/-!
# What effects do to a tally

* `Tally.get_applyAll`: a counter grows by the number of its own effects;
* `Tally.active_applyAll`: the number of active sessions grows by those that enter, and shrinks by
  those that leave.
-/

namespace BotFleet.Tally

theorem get_apply (t : Tally) (e : Effect) (c : Counter) :
    (t.apply e).get c = t.get c + UInt64.ofNat (if e = .count c then 1 else 0) := by
  cases e with
  | count c' =>
    by_cases hc : c' = c
    · rw [hc, if_pos rfl]
      cases c <;> rfl
    · rw [if_neg (by simpa using hc)]
      refine Eq.trans ?_ (UInt64.add_zero _).symm
      cases c' <;> cases c <;> first | rfl | exact absurd rfl hc
  | enter | leave => cases c <;> exact (UInt64.add_zero _).symm
  | _ => exact (UInt64.add_zero _).symm

theorem get_applyAll (t : Tally) (es : List Effect) (c : Counter) :
    (t.applyAll es).get c = t.get c + UInt64.ofNat (es.count (.count c)) := by
  induction es generalizing t with
  | nil => exact (UInt64.add_zero _).symm
  | cons e es ih =>
    have hcons : t.applyAll (e :: es) = (t.apply e).applyAll es := rfl
    rw [hcons, ih, get_apply, List.count_cons, UInt64.add_assoc, ← UInt64.ofNat_add, Nat.add_comm]
    simp only [beq_iff_eq]

theorem active_apply (t : Tally) (e : Effect) :
    (t.apply e).active + UInt64.ofNat (if e = .leave then 1 else 0) =
      t.active + UInt64.ofNat (if e = .enter then 1 else 0) := by
  cases e with
  | count c => cases c <;> rfl
  | enter => exact UInt64.add_zero _
  | leave => exact (UInt64.sub_add_cancel ..).trans (UInt64.add_zero _).symm
  | _ => rfl

theorem active_applyAll (t : Tally) (es : List Effect) :
    (t.applyAll es).active + UInt64.ofNat (es.count .leave) =
      t.active + UInt64.ofNat (es.count .enter) := by
  induction es generalizing t with
  | nil => rfl
  | cons e es ih =>
    have hcons : t.applyAll (e :: es) = (t.apply e).applyAll es := rfl
    rw [hcons, List.count_cons, List.count_cons, UInt64.ofNat_add, UInt64.ofNat_add,
      ← UInt64.add_assoc, ih]
    simp only [beq_iff_eq]
    rw [UInt64.add_assoc, UInt64.add_comm (UInt64.ofNat (es.count .enter)), ← UInt64.add_assoc,
      active_apply, UInt64.add_assoc, UInt64.add_comm (UInt64.ofNat (if e = .enter then 1 else 0))]

end BotFleet.Tally
