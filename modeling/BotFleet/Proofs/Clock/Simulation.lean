import BotFleet.Clock.Simulation

/-!
# Timed systems that reach their goal

* `Timed.runUntil_keeps`, `Timed.await_keeps`: what settling and waiting keep holds in the end;
* `Timed.runUntil_keeps_of_rest`: the same, if only those waits keep it that pass over nothing;
* `Timed.done_of_await`: a wait that says that it reached its goal has reached it;
* `Timed.now_of_runUntil`: at which instant it did;
* **`Timed.runUntil_reaches`**: a system whose waits all end before some instant reaches its goal.
-/

namespace BotFleet

namespace Timed

variable {σ : Type} {sys : Timed σ} {done : σ → Bool} {P : σ → Prop}

theorem runUntil_of_done {left : Nat} {s : σ} (h : done (sys.settle s) = true) :
    sys.runUntil done left s = (sys.settle s, true) := by
  rw [runUntil]
  exact if_pos h

theorem runUntil_of_wait {left d : Nat} {s : σ} (h : done (sys.settle s) = false)
    (hwait : sys.wait? (sys.settle s) = some d) (hd : 0 < d ∧ d ≤ left) :
    sys.runUntil done left s = sys.runUntil done (left - d) (sys.pass d (sys.settle s)) := by
  rw [runUntil]
  simp only [h, Bool.false_eq_true, if_false, hwait, dif_pos hd]

theorem runUntil_keeps (hsettle : ∀ s, P s → P (sys.settle s))
    (hpass : ∀ ms s, P s → P (sys.pass ms s)) (left : Nat) (s : σ) (h : P s) :
    P (sys.runUntil done left s).1 := by
  fun_induction runUntil sys done left s with
  | case1 left s _ _ => exact hsettle s h
  | case2 left s _ _ _ => exact hpass left _ (hsettle s h)
  | case3 left s _ _ d _ _ ih => exact ih (hpass d _ (hsettle s h))
  | case4 left s _ _ d _ _ => exact hpass left _ (hsettle s h)

/-- What settling keeps holds in the end, if waits keep it that pass over nothing that is due.
Settling leaves nothing that is due at once. -/
theorem runUntil_keeps_of_rest {Q : σ → Prop}
    (hsettle : ∀ s, P s → P (sys.settle s) ∧ Q (sys.settle s))
    (hpos : ∀ s d, Q s → sys.wait? s = some d → 0 < d)
    (hpass : ∀ s d, P s → Q s → (∀ w ∈ sys.wait? s, d ≤ w) → P (sys.pass d s)) (left : Nat)
    (s : σ) (h : P s) : P (sys.runUntil done left s).1 := by
  fun_induction runUntil sys done left s with
  | case1 left s _ _ => exact (hsettle s h).1
  | case2 left s settled _ hwait =>
    obtain ⟨hkept, hrest⟩ := hsettle s h
    refine hpass settled left hkept hrest fun w hw => ?_
    rw [hwait] at hw
    cases hw
  | case3 left s settled _ d hwait _ ih =>
    obtain ⟨hkept, hrest⟩ := hsettle s h
    refine ih (hpass settled d hkept hrest fun w hw => ?_)
    rw [hwait] at hw
    cases hw
    exact Nat.le_refl d
  | case4 left s settled _ d hwait hd =>
    obtain ⟨hkept, hrest⟩ := hsettle s h
    refine hpass settled left hkept hrest fun w hw => ?_
    have := hpos settled d hrest hwait
    rw [hwait] at hw
    cases hw
    omega

theorem done_of_runUntil (left : Nat) (s : σ) (h : (sys.runUntil done left s).2 = true) :
    done (sys.runUntil done left s).1 = true := by
  fun_induction runUntil sys done left s with
  | case1 left s _ hdone => exact hdone
  | case2 => cases h
  | case3 left s _ _ d _ _ ih => exact ih h
  | case4 => cases h

theorem await_keeps (hsettle : ∀ s, P s → P (sys.settle s))
    (hpass : ∀ ms s, P s → P (sys.pass ms s)) (limit : Nat) (s : σ) (h : P s) :
    P (sys.await done limit s).1 := by
  unfold await
  split
  · exact h
  · exact runUntil_keeps hsettle hpass limit s h

theorem done_of_await (limit : Nat) (s : σ) (h : (sys.await done limit s).2 = true) :
    done (sys.await done limit s).1 = true := by
  unfold await at h ⊢
  split at h
  · rename_i hlimit
    rwa [if_pos hlimit]
  · rename_i hlimit
    rw [if_neg hlimit]
    exact done_of_runUntil limit s h

/-- A run reaches its goal at the right instant, if it does not reach it before and its waits do not
go beyond. -/
theorem now_of_runUntil (now : σ → Nat) {right? : Option Nat}
    (hsettle : ∀ s, P s → now (sys.settle s) = now s ∧
      (done (sys.settle s) = true → ∃ t, right? = some t ∧ t ≤ now s))
    (hwait : ∀ s d, P s → done (sys.settle s) = false → sys.wait? (sys.settle s) = some d →
      P (sys.pass d (sys.settle s)))
    (hle : ∀ s, P s → ∀ t, right? = some t → now s ≤ t) (left : Nat) (s : σ) (h : P s)
    (hdone : (sys.runUntil done left s).2 = true) :
    right? = some (now (sys.runUntil done left s).1) := by
  fun_induction runUntil sys done left s with
  | case1 left s settled hreached =>
    obtain ⟨hnow, hlast⟩ := hsettle s h
    obtain ⟨t, ht, htnow⟩ := hlast hreached
    rw [hnow, ht, Nat.le_antisymm htnow (hle s h t ht)]
  | case2 => cases hdone
  | case3 left s settled hopen d hd _ ih =>
    exact ih (hwait s d h (Bool.not_eq_true _ ▸ hopen) hd) hdone
  | case4 => cases hdone

/-- **A system whose waits all end before some instant reaches its goal**, if it may run until
then. -/
theorem runUntil_reaches {now : σ → Nat} {last : Nat}
    (hstep : ∀ s, P s → done (sys.settle s) = true ∨
      ∃ d, sys.wait? (sys.settle s) = some d ∧ 0 < d ∧ now s + d ≤ last ∧
        now (sys.pass d (sys.settle s)) = now s + d ∧ P (sys.pass d (sys.settle s)))
    (left : Nat) (s : σ) (h : P s) (hleft : last ≤ now s + left) :
    (sys.runUntil done left s).2 = true := by
  induction left using Nat.strongRecOn generalizing s with
  | ind left ih =>
    by_cases hdone : done (sys.settle s) = true
    · rw [runUntil_of_done hdone]
    · obtain ⟨d, hwait, hpos, hlast, hnow, hnext⟩ := (hstep s h).resolve_left hdone
      rw [runUntil_of_wait (by simpa using hdone) hwait ⟨hpos, by omega⟩]
      exact ih (left - d) (by omega) _ hnext (by omega)

end Timed

end BotFleet
