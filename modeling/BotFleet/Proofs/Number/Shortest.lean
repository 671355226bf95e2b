import BotFleet.Number.Shortest
import BotFleet.Proofs.Number.Rounding

/-!
# The shortest decimal is there

Of the decimals with seventeen digits one reads back as a given double, so the search for the
shortest one ends, and it finds a decimal that is not above the largest double.

* `Double.Below`, `Double.below_add`: a decimal is at most so many units;
* `Double.below_decimalExponent`: the exponent of the first digit of a double;
* **`Double.exists_shortestOn`**: seventeen digits are enough;
* **`Double.shortest_spec`**: how long and how large the shortest decimal is.
-/

namespace BotFleet

theorem lt_pow_length_digitsOf (n : Nat) : n < 10 ^ (digitsOf n).length :=
  (Nat.length_toDigits_le_iff (by decide) Nat.length_toDigits_pos).mp le_rfl

theorem pow_length_digitsOf_le {n : Nat} (hn : 0 < n) : 10 ^ ((digitsOf n).length - 1) ≤ n := by
  by_contra hlt
  rcases Nat.eq_zero_or_pos ((digitsOf n).length - 1) with hzero | hpos
  · rw [hzero] at hlt
    exact hlt hn
  · have hle := (Nat.length_toDigits_le_iff (by decide) hpos).mpr (Nat.lt_of_not_le hlt)
    rw [digitsOf] at hpos hle
    omega

namespace Double

/-! ## Decimals and units -/

/-- The decimal `x * 10 ^ p` is at most `y`. -/
def Below (x : Nat) (p : Int) (y : Nat) : Prop := x * (tenTo p).1 ≤ y * (tenTo p).2

theorem Below.of_le {x x' y : Nat} {p : Int} (h : Below x p y) (hle : x' ≤ x) : Below x' p y :=
  (Nat.mul_le_mul_right _ hle).trans h

theorem below_of_nonpos {x y : Nat} {p : Int} (hp : p ≤ 0) (h : x ≤ y) : Below x p y := by
  rw [Below, tenTo, Int.toNat_of_nonpos hp]
  exact Nat.mul_le_mul h (Nat.pow_pos (by decide))

theorem tenTo_snd_pos (p : Int) : 0 < (tenTo p).2 := Nat.pow_pos (by decide)

theorem tenTo_add (p : Int) (k : Nat) :
    (tenTo (p + k)).1 * (tenTo p).2 = 10 ^ k * (tenTo p).1 * (tenTo (p + k)).2 := by
  simp only [tenTo, Nat.pow_eq, ← Nat.pow_add]
  congr 1
  omega

theorem below_add (x y : Nat) (p : Int) (k : Nat) : Below x (p + k) y ↔ Below (x * 10 ^ k) p y := by
  have hleft : x * (tenTo (p + k)).1 * (tenTo p).2 =
      x * 10 ^ k * (tenTo p).1 * (tenTo (p + k)).2 := by
    rw [Nat.mul_assoc, tenTo_add]
    ring
  have hright : y * (tenTo (p + k)).2 * (tenTo p).2 = y * (tenTo p).2 * (tenTo (p + k)).2 := by ring
  rw [Below, ← Nat.mul_le_mul_right_iff (tenTo_snd_pos p), hleft, hright,
    Nat.mul_le_mul_right_iff (tenTo_snd_pos (p + k)), Below]

/-! ## The first digit -/

theorem below_decimalExponent {m : Nat} (hm : 0 < unitsOf m) :
    Below one (decimalExponent m) (unitsOf m) ∧ ¬Below one (decimalExponent m + 1) (unitsOf m) := by
  unfold decimalExponent
  have hone := one_pos
  generalize unitsOf m = v at hm
  generalize one = u at hone
  simp only
  split_ifs with hle
  · have hlow := pow_length_digitsOf_le (Nat.div_pos hle hone)
    have hhigh := lt_pow_length_digitsOf (v / u)
    have hlen : 0 < (digitsOf (v / u)).length := Nat.length_toDigits_pos
    generalize (digitsOf (v / u)).length = len at hlow hhigh hlen
    have hup : (((len : Int) - 1).toNat = len - 1) ∧ (-((len : Int) - 1)).toNat = 0 := by omega
    have hup' : (((len : Int) - 1 + 1).toNat = len) ∧ (-((len : Int) - 1 + 1)).toNat = 0 := by omega
    simp only [Below, tenTo, Nat.pow_eq, hup, hup', Nat.pow_zero, Nat.mul_one, Nat.not_le]
    rw [Nat.le_div_iff_mul_le hone] at hlow
    rw [Nat.div_lt_iff_lt_mul hone] at hhigh
    exact ⟨Nat.mul_comm .. ▸ hlow, Nat.mul_comm .. ▸ hhigh⟩
  · have hdiv : 0 < (u - 1) / v := Nat.div_pos (Nat.le_sub_one_of_lt (Nat.lt_of_not_le hle)) hm
    have hlow := pow_length_digitsOf_le hdiv
    have hhigh := lt_pow_length_digitsOf ((u - 1) / v)
    have hlen : 0 < (digitsOf ((u - 1) / v)).length := Nat.length_toDigits_pos
    generalize (digitsOf ((u - 1) / v)).length = len at hlow hhigh hlen
    have hup : (-(len : Int)).toNat = 0 ∧ (- -(len : Int)).toNat = len := by omega
    have hup' : (-(len : Int) + 1).toNat = 0 ∧ (-(-(len : Int) + 1)).toNat = len - 1 := by omega
    simp only [Below, tenTo, Nat.pow_eq, hup, hup', Nat.pow_zero, Nat.mul_one, Nat.not_le]
    rw [Nat.le_div_iff_mul_le hm, Nat.mul_comm] at hlow
    rw [Nat.div_lt_iff_lt_mul hm, Nat.mul_comm] at hhigh
    omega

/-! ## One number of digits -/

/-- What is nearer to a double than half the gap below it reads back as this double. -/
theorem readsBack_of_near {m n d : Nat} (hlow : 2 * (unitsOf (m + 1) * d) < 2 * n + gap m * d)
    (hhigh : 2 * n < 2 * (unitsOf (m + 1) * d) + gap m * d) : readsBack (m + 1) n d = true := by
  have hbelow : (unitsOf m + unitsOf (m + 1)) * d + gap m * d = 2 * (unitsOf (m + 1) * d) := by
    rw [unitsOf_succ m]
    ring
  have habove : (unitsOf (m + 1) + unitsOf (m + 1 + 1)) * d =
      2 * (unitsOf (m + 1) * d) + gap (m + 1) * d := by
    rw [unitsOf_succ (m + 1)]
    ring
  have hgap := Nat.mul_le_mul_right d (gap_mono (Nat.le_add_right m 1))
  unfold readsBack
  simp only [Nat.add_sub_cancel]
  split <;> simp only [Bool.and_eq_true, decide_eq_true_eq] <;> omega

theorem shortestOn_eq (m : Nat) (p : Int) : shortestOn m p =
    let value := unitsOf m * (tenTo p).2
    let step := one * (tenTo p).1
    let nearer := roundQuotient value step
    let other := if nearer = value / step then value / step + 1 else value / step
    if readsBack m (nearer * step) (tenTo p).2 then some nearer
    else if readsBack m (other * step) (tenTo p).2 then some other
    else none := rfl

theorem of_shortestOn_eq_some {m n : Nat} {p : Int} (h : shortestOn m p = some n) :
    readsBack m (n * (one * (tenTo p).1)) (tenTo p).2 = true ∧
      n ≤ unitsOf m * (tenTo p).2 / (one * (tenTo p).1) + 1 := by
  rw [shortestOn_eq] at h
  generalize unitsOf m * (tenTo p).2 = value at h ⊢
  generalize one * (tenTo p).1 = step at h ⊢
  simp only at h
  generalize hother : (if roundQuotient value step = value / step then value / step + 1
    else value / step) = other at h
  have hle : other ≤ value / step + 1 := by
    rw [← hother]
    split_ifs <;> omega
  split at h
  · rename_i hback
    cases h
    exact ⟨hback, roundQuotient_le_div_add_one ..⟩
  · split at h
    · rename_i hback
      cases h
      exact ⟨hback, hle⟩
    · cases h

theorem unitsOf_pos (m : Nat) : 0 < unitsOf (m + 1) :=
  unitsOf_succ m ▸ Nat.add_pos_right _ (gap_pos m)

/-- **Seventeen digits are enough.** -/
theorem exists_shortestOn (m : Nat) :
    ∃ n, shortestOn (m + 1) (decimalExponent (m + 1) - 17 + 1) = some n := by
  obtain ⟨hlow, -⟩ := below_decimalExponent (unitsOf_pos m)
  generalize decimalExponent (m + 1) = e at hlow
  have he : e = e - 17 + 1 + (16 : Nat) := by omega
  rw [he, below_add] at hlow
  generalize e - 17 + 1 = p at hlow
  refine ⟨_, (shortestOn_eq _ _).trans (if_pos ?_)⟩
  have hstep : 0 < one * (tenTo p).1 := Nat.mul_pos one_pos (Nat.pow_pos (by decide))
  have hdown := tenTo_snd_pos p
  have hnear := roundQuotient_near (n := unitsOf (m + 1) * (tenTo p).2) hstep
  -- a step is a sixteenth place of the value, and the gap is its fifty-third bit at least
  have hfine : one * (tenTo p).1 < gap m * (tenTo p).2 := by
    have hvalue := Nat.mul_le_mul_right (tenTo p).2 (unitsOf_succ_le m)
    have hgap := Nat.mul_pos (gap_pos m) hdown
    rw [Below, Nat.mul_right_comm] at hlow
    rw [Nat.mul_assoc] at hvalue
    omega
  rw [Nat.mul_comm _ (roundQuotient _ _)] at hnear
  exact readsBack_of_near (by omega) (by omega)

/-! ## The search -/

theorem stripZeros_spec (fuel n : Nat) (p : Int) :
    ∃ k : Nat, n = (stripZeros fuel n p).1 * 10 ^ k ∧ (stripZeros fuel n p).2 = p + k := by
  induction fuel generalizing n p with
  | zero => exact ⟨0, by simp [stripZeros], by simp [stripZeros]⟩
  | succ fuel ih =>
    rw [stripZeros]
    split
    · obtain ⟨k, hn, hp⟩ := ih (n / 10) (p + 1)
      refine ⟨k + 1, ?_, by rw [hp]; push_cast; ring⟩
      rw [Nat.pow_succ, ← Nat.mul_assoc, ← hn]
      omega
    · exact ⟨0, by simp, by simp⟩

/-- The search ends with the first number of digits for which there is a decimal. -/
theorem shortestFrom_spec {m : Nat} {e : Int} {count fuel : Nat}
    (h : ∃ k n, count ≤ k ∧ k < count + fuel ∧ shortestOn m (e - k + 1) = some n) :
    ∃ k n, k < count + fuel ∧ shortestOn m (e - k + 1) = some n ∧
      shortestFrom m e count fuel = stripZeros (k + 1) n (e - k + 1) := by
  induction fuel generalizing count with
  | zero =>
    obtain ⟨k, n, hle, hlt, -⟩ := h
    omega
  | succ fuel ih =>
    rw [shortestFrom]
    cases hfound : shortestOn m (e - count + 1) with
    | some n => exact ⟨count, n, by omega, hfound, rfl⟩
    | none =>
      obtain ⟨k, n, hle, hlt, hk⟩ := h
      have hne : k ≠ count := by
        rintro rfl
        rw [hfound] at hk
        cases hk
      obtain ⟨k, n, hlt, hspec⟩ := ih ⟨k, n, (by omega : count + 1 ≤ k), by omega, hk⟩
      exact ⟨k, n, by omega, hspec⟩

theorem exists_shortest (m : Nat) : ∃ (n : Nat) (p : Int) (k : Nat),
    readsBack (m + 1) (n * (one * (tenTo p).1)) (tenTo p).2 = true ∧ n ≤ 10 ^ 17 ∧
      n = (shortest (m + 1)).1 * 10 ^ k ∧ (shortest (m + 1)).2 = p + k := by
  obtain ⟨n₀, hn₀⟩ := exists_shortestOn m
  obtain ⟨_, hhigh⟩ := below_decimalExponent (unitsOf_pos m)
  rw [shortest]
  generalize decimalExponent (m + 1) = e at hn₀ hhigh ⊢
  have hfound : ∃ (count : Nat) (n : Nat), 1 ≤ count ∧ count < 1 + 17 ∧
      shortestOn (m + 1) (e - count + 1) = some n := ⟨17, n₀, by decide, by decide, hn₀⟩
  obtain ⟨count, n, hcount, hon, hshortest⟩ := shortestFrom_spec hfound
  obtain ⟨k, hn, hp⟩ := stripZeros_spec (count + 1) n (e - count + 1)
  obtain ⟨hback, hle⟩ := of_shortestOn_eq_some hon
  rw [hshortest]
  refine ⟨n, e - count + 1, k, hback, ?_, hn, hp⟩
  -- the first digit stands for `10 ^ e`, so before the point there are `count` digits
  have he : e + 1 = e - count + 1 + count := by omega
  rw [he, below_add, Below, Nat.not_le, Nat.mul_right_comm, Nat.mul_comm _ (10 ^ count)] at hhigh
  have hstep : 0 < one * (tenTo (e - count + 1)).1 :=
    Nat.mul_pos one_pos (Nat.pow_pos (by decide))
  rw [← Nat.div_lt_iff_lt_mul hstep] at hhigh
  exact (hle.trans hhigh).trans (Nat.pow_le_pow_right (by decide) (by omega))

/-! ## The largest double -/

theorem le_of_readsBack {m n d : Nat} (h : readsBack m n d = true) :
    (unitsOf (m - 1) + unitsOf m) * d ≤ 2 * n ∧ 2 * n ≤ (unitsOf m + unitsOf (m + 1)) * d := by
  unfold readsBack at h
  simp only at h
  split at h <;> simp only [Bool.and_eq_true, decide_eq_true_eq] at h <;> omega

/-- The largest magnitude of a number. -/
def largest : Nat := infinite - 1

theorem shortest_largest : shortest largest = (17976931348623157, 292) := by decide +kernel

/-- **The shortest decimal** has a digit, and seventeen of them at most; and it is not above the
largest double. -/
theorem shortest_spec {m : Nat} (hm : 0 < m) (hfinite : m < infinite) :
    0 < (shortest m).1 ∧ (shortest m).1 ≤ 10 ^ 17 ∧
      Below ((shortest m).1 * one) (shortest m).2 (unitsOf largest) := by
  obtain ⟨m, rfl⟩ : ∃ k, m = k + 1 := ⟨m - 1, by omega⟩
  obtain ⟨n, p, k, hback, hle, hn, hp⟩ := exists_shortest m
  obtain ⟨hlow, hhigh⟩ := le_of_readsBack hback
  have hpos : 0 < n := by
    have hlow' := Nat.mul_pos (Nat.add_pos_right (unitsOf m) (unitsOf_pos m)) (tenTo_snd_pos p)
    by_contra hzero
    obtain rfl : n = 0 := by omega
    rw [Nat.zero_mul] at hlow
    exact absurd hlow (Nat.not_le.mpr hlow')
  refine ⟨Nat.pos_of_mul_pos_right (hn ▸ hpos), ?_, ?_⟩
  · exact (Nat.le_mul_of_pos_right _ (Nat.pow_pos (by decide))).trans (hn ▸ hle)
  · rcases (show m + 1 ≤ largest from Nat.le_sub_one_of_lt hfinite).lt_or_eq with hlt | heq
    · rw [hp, below_add, Nat.mul_right_comm, ← hn, Below, Nat.mul_assoc]
      have hmono := Nat.add_le_add (unitsOf_mono hlt.le) (unitsOf_mono (Nat.add_one_le_of_lt hlt))
      have hmul := Nat.mul_le_mul_right (tenTo p).2 hmono
      rw [Nat.add_mul (unitsOf largest)] at hmul
      omega
    · -- the interval of the largest double reaches beyond it
      rw [heq, shortest_largest]
      unfold Below
      decide +kernel

end Double

end BotFleet
