import BotFleet.Proofs.Clock.Simulation

/-!
# A timed system from instant to instant

A timed system goes straight to the next instant at which something is due. If its waits pass over
nothing, it comes to the same as if it did at every instant what it can do then.

* `Timed.after`: what a system comes to from instant to instant;
* `Timed.Steady`: a system that settles for good, and whose waits pass over nothing;
* `Timed.Outcome`, **`Timed.Steady.outcome_runUntil`**: a run ends at the first instant at which its
  goal is reached;
* **`Timed.Steady.run_eq_after`**, `Timed.Steady.after_after`: a run comes to what comes about from
  instant to instant, and goes on where another has ended.
-/

namespace BotFleet

namespace Timed

variable {σ : Type} {sys : Timed σ} {P : σ → Prop} {done : σ → Bool} {s : σ} {d left : Nat}

/-- What a system comes to in some milliseconds, if at every instant it does what it can do then. -/
def after (sys : Timed σ) : Nat → σ → σ
  | 0, s => sys.settle s
  | d + 1, s => sys.settle (sys.pass 1 (sys.after d s))

/-- A system that has nothing left to do once it has settled, and whose waits pass over nothing. -/
structure Steady (sys : Timed σ) (P : σ → Prop) : Prop where
  settle : ∀ s, P s → P (sys.settle s)
  pass : ∀ s d, P s → P (sys.pass d s)
  settled : ∀ s, P s → sys.settle (sys.settle s) = sys.settle s
  pass_zero : ∀ s, sys.pass 0 s = s
  pass_pass : ∀ s d d', sys.pass d' (sys.pass d s) = sys.pass (d + d') s
  wait_pos : ∀ s, P s → sys.settle s = s → ∀ w ∈ sys.wait? s, 0 < w
  idle : ∀ s, P s → sys.settle s = s → ∀ d, (∀ w ∈ sys.wait? s, d < w) →
    sys.settle (sys.pass d s) = sys.pass d s

/-- What running a system until it reaches its goal comes to: the first instant at which it does, or
the end of the time that is left. -/
inductive Outcome (sys : Timed σ) (done : σ → Bool) (left : Nat) (s : σ) : σ × Bool → Prop where
  | reached (d : Nat) (hd : d ≤ left) (hdone : done (sys.after d s) = true)
      (hopen : ∀ k, k < d → done (sys.after k s) = false) :
      Outcome sys done left s (sys.after d s, true)
  | missed (hopen : ∀ k, k ≤ left → done (sys.after k s) = false) :
      Outcome sys done left s (sys.after left s, false)

theorem Outcome.before {s' : σ} {w : Nat} {result : σ × Bool}
    (h : Outcome sys done (left - w) s' result) (hw : w ≤ left)
    (hgoes : ∀ d, sys.after (w + d) s = sys.after d s')
    (hfirst : ∀ k, k < w → done (sys.after k s) = false) : Outcome sys done left s result := by
  have hopen {n : Nat} (hn : ∀ k, k < n → done (sys.after k s') = false) (k : Nat)
      (hk : k < w + n) : done (sys.after k s) = false := by
    rcases Nat.lt_or_ge k w with hk' | hk'
    · exact hfirst k hk'
    · obtain ⟨d, rfl⟩ := Nat.exists_eq_add_of_le hk'
      rw [hgoes]
      exact hn d (by omega)
  cases h with
  | reached d hd hdone hlater =>
    rw [← hgoes] at hdone ⊢
    exact .reached (w + d) (by omega) hdone (hopen hlater)
  | missed hlater =>
    rw [← hgoes, Nat.add_sub_cancel' hw]
    exact .missed fun k hk => hopen (n := left - w + 1) (fun d hd => hlater d (by omega)) k
      (by omega)

namespace Steady

variable (h : sys.Steady P)
include h

theorem keeps_after (hs : P s) (d : Nat) : P (sys.after d s) := by
  induction d with
  | zero => exact h.settle s hs
  | succ d ih => exact h.settle _ (h.pass _ 1 ih)

theorem settle_after (hs : P s) (d : Nat) : sys.settle (sys.after d s) = sys.after d s := by
  cases d with
  | zero => exact h.settled s hs
  | succ d => exact h.settled _ (h.pass _ 1 (h.keeps_after hs d))

theorem after_after (hs : P s) (d d' : Nat) :
    sys.after d' (sys.after d s) = sys.after (d + d') s := by
  induction d' with
  | zero => exact h.settle_after hs d
  | succ d' ih => rw [after, ih]; rfl

theorem after_settle (hs : P s) (d : Nat) : sys.after d (sys.settle s) = sys.after d s :=
  (h.after_after hs 0 d).trans (by rw [Nat.zero_add])

theorem outcome_of_settle {result : σ × Bool} (hs : P s)
    (hresult : Outcome sys done left (sys.settle s) result) : Outcome sys done left s result := by
  cases hresult with
  | reached d hd hdone hopen =>
    rw [h.after_settle hs] at hdone ⊢
    exact .reached d hd hdone fun k hk => h.after_settle hs k ▸ hopen k hk
  | missed hopen =>
    rw [h.after_settle hs]
    exact .missed fun k hk => h.after_settle hs k ▸ hopen k hk

theorem after_eq_pass (hs : P s) (hsettled : sys.settle s = s) (hd : ∀ w ∈ sys.wait? s, d < w) :
    sys.after d s = sys.pass d s := by
  induction d with
  | zero => rw [after, h.pass_zero, hsettled]
  | succ d ih =>
    rw [after, ih fun w hw => Nat.lt_of_succ_lt (hd w hw), h.pass_pass]
    exact h.idle s hs hsettled (d + 1) hd

theorem after_wait (hs : P s) (hsettled : sys.settle s = s) {w : Nat} (hw : sys.wait? s = some w)
    (d : Nat) : sys.after (w + d) s = sys.after d (sys.pass w s) := by
  induction d with
  | zero =>
    obtain ⟨w, rfl⟩ := Nat.exists_eq_succ_of_ne_zero (Nat.ne_of_gt (h.wait_pos s hs hsettled w hw))
    have hbefore : sys.after w s = sys.pass w s := h.after_eq_pass hs hsettled fun w' hw' => by
      cases hw.symm.trans hw'
      exact Nat.lt_succ_self w
    show sys.settle (sys.pass 1 (sys.after w s)) = sys.settle (sys.pass (w + 1) s)
    rw [hbefore, h.pass_pass]
  | succ d ih => rw [← Nat.add_assoc, after, ih]; rfl

section Goal

variable (hidle : ∀ s, P s → sys.settle s = s → done s = false → ∀ d,
  (∀ w ∈ sys.wait? s, d < w) → done (sys.pass d s) = false)
include hidle

theorem missed (hs : P s) (hsettled : sys.settle s = s) (hopen : done s = false)
    (hd : ∀ w ∈ sys.wait? s, d < w) : done (sys.after d s) = false := by
  rw [h.after_eq_pass hs hsettled hd]
  exact hidle s hs hsettled hopen d hd

theorem outcome_of_idle (hs : P s) (hsettled : sys.settle s = s) (hopen : done s = false)
    (hleft : ∀ w ∈ sys.wait? s, left < w) :
    Outcome sys done left s (sys.pass left s, false) := by
  rw [← h.after_eq_pass hs hsettled hleft]
  exact .missed fun k hk => h.missed hidle hs hsettled hopen fun w hw =>
    Nat.lt_of_le_of_lt hk (hleft w hw)

/-- **A run ends at the first instant at which its goal is reached**, if that never happens by the
mere passing of time. -/
theorem outcome_runUntil (left : Nat) (hs : P s) :
    Outcome sys done left s (sys.runUntil done left s) := by
  fun_induction runUntil sys done left s with
  | case1 left s settled hdone =>
    exact .reached 0 (Nat.zero_le _) hdone fun k hk => absurd hk (Nat.not_lt_zero k)
  | case2 left s settled hopen hwait =>
    refine h.outcome_of_settle hs (h.outcome_of_idle hidle (h.settle s hs) (h.settled s hs)
      (Bool.not_eq_true _ ▸ hopen) fun w hw => ?_)
    cases hwait.symm.trans hw
  | case3 left s settled hopen w hwait hw ih =>
    have hrest := h.settle s hs
    refine h.outcome_of_settle hs ((ih (h.pass _ w hrest)).before hw.2
      (h.after_wait hrest (h.settled s hs) hwait) fun k hk => h.missed hidle hrest
        (h.settled s hs) (Bool.not_eq_true _ ▸ hopen) fun w' hw' => ?_)
    cases hwait.symm.trans hw'
    exact hk
  | case4 left s settled hopen w hwait hw =>
    have hrest := h.settle s hs
    have hpos := h.wait_pos _ hrest (h.settled s hs) w hwait
    refine h.outcome_of_settle hs (h.outcome_of_idle hidle hrest (h.settled s hs)
      (Bool.not_eq_true _ ▸ hopen) fun w' hw' => ?_)
    cases hwait.symm.trans hw'
    omega

end Goal

/-- **A run comes to what comes about from instant to instant.** -/
theorem run_eq_after (left : Nat) (hs : P s) : sys.run left s = sys.after left s := by
  have hrun : Outcome sys (fun _ => false) left s (sys.runUntil (fun _ => false) left s) :=
    h.outcome_runUntil (fun _ _ _ _ _ _ => rfl) left hs
  rw [run]
  generalize sys.runUntil (fun _ => false) left s = result at hrun
  cases hrun with
  | reached d hd hdone => cases hdone
  | missed => rfl

end Steady

end Timed

end BotFleet
