import BotFleet.Number.Double
import Mathlib.Order.Monotone.Basic
import Mathlib.Tactic.Ring

/-!
# Rounding

Doubles lie on grids that are twice as coarse from one power of two to the next. A fraction is
rounded to the grid on which it lies, and a larger fraction never to a smaller double.

* `roundQuotient_mono`, `roundQuotient_near`: a quotient is rounded to a nearest natural;
* `Double.gap`, `Double.unitsOf_succ`: how far apart neighbouring doubles are;
* `Double.gridOf_spec`: the grid on which a fraction lies;
* **`Double.nearestMagnitude_mono`**: rounding is monotone;
* `Double.magnitude_ofNat_mono`, `Double.magnitude_mul_mono`: and so are the operations.
-/

namespace BotFleet

/-! ## Quotients -/

section Quotient

variable {n n' d k : Nat}

theorem roundQuotient_eq (n d : Nat) : roundQuotient n d =
    if 2 * (n % d) < d then n / d else if d < 2 * (n % d) then n / d + 1
    else if n / d % 2 = 0 then n / d else n / d + 1 := rfl

/-- A rounded quotient is at most half a unit away. -/
theorem roundQuotient_near (hd : 0 < d) :
    2 * (d * roundQuotient n d) ≤ 2 * n + d ∧ 2 * n ≤ 2 * (d * roundQuotient n d) + d := by
  have hn := Nat.div_add_mod n d
  have hr := Nat.mod_lt n hd
  have hsucc : d * (n / d + 1) = d * (n / d) + d := Nat.mul_succ ..
  rw [roundQuotient_eq]
  split_ifs <;> omega

theorem div_le_roundQuotient (n d : Nat) : n / d ≤ roundQuotient n d := by
  rw [roundQuotient_eq]
  split_ifs <;> omega

theorem roundQuotient_le_div_add_one (n d : Nat) : roundQuotient n d ≤ n / d + 1 := by
  rw [roundQuotient_eq]
  split_ifs <;> omega

theorem le_roundQuotient (hd : 0 < d) (h : d * k ≤ n) : k ≤ roundQuotient n d :=
  ((Nat.le_div_iff_mul_le hd).mpr (Nat.mul_comm k d ▸ h)).trans (div_le_roundQuotient n d)

theorem roundQuotient_le (hd : 0 < d) (h : n ≤ d * k) : roundQuotient n d ≤ k := by
  by_contra hlt
  have hnear := (roundQuotient_near (n := n) hd).1
  have hmul := Nat.mul_le_mul_left d (Nat.lt_of_not_le hlt)
  rw [Nat.mul_succ] at hmul
  omega

theorem roundQuotient_mono (h : n ≤ n') : roundQuotient n d ≤ roundQuotient n' d := by
  have hn := Nat.div_add_mod n d
  have hn' := Nat.div_add_mod n' d
  rcases (Nat.div_le_div_right h : n / d ≤ n' / d).lt_or_eq with hlt | heq
  · exact (roundQuotient_le_div_add_one n d).trans ((Nat.succ_le_of_lt hlt).trans
      (div_le_roundQuotient n' d))
  · -- both lie between the same naturals
    have hmod : n % d ≤ n' % d := by rw [heq] at hn; omega
    rw [roundQuotient_eq, roundQuotient_eq, heq]
    split_ifs <;> omega

end Quotient

namespace Double

theorem one_pos : 0 < one := by decide +kernel

/-! ## Neighbours -/

/-- How far a double is from the next larger one, in units. -/
def gap (magnitude : Nat) : Nat := 2 ^ (magnitude / significands - 1)

theorem gap_pos (m : Nat) : 0 < gap m := Nat.two_pow_pos _

theorem gap_mono {m m' : Nat} (h : m ≤ m') : gap m ≤ gap m' :=
  Nat.pow_le_pow_right (by decide) (Nat.sub_le_sub_right (Nat.div_le_div_right h) 1)

theorem unitsOf_eq (exponent fraction : Nat) (h : fraction < significands) :
    unitsOf (significands * exponent + fraction) =
      if exponent = 0 then fraction else (fraction + significands) * 2 ^ (exponent - 1) := by
  have hpos : 0 < significands := by decide
  simp only [unitsOf, Nat.mul_add_div hpos, Nat.div_eq_of_lt h, Nat.mul_add_mod, Nat.mod_eq_of_lt h,
    Nat.add_zero]
  rfl

theorem unitsOf_succ (m : Nat) : unitsOf (m + 1) = unitsOf m + gap m := by
  have hpos : 0 < significands := by decide
  have hm := Nat.div_add_mod m significands
  have hf := Nat.mod_lt m hpos
  generalize he : m / significands = e at hm
  generalize m % significands = f at hm hf
  rw [gap, he]
  subst hm
  rw [unitsOf_eq e f hf, Nat.add_assoc]
  rcases (Nat.add_one_le_of_lt hf).lt_or_eq with hlt | heq
  · rw [unitsOf_eq e (f + 1) hlt]
    split_ifs with h0
    · simp [h0]
    · ring
  · -- the next double is the first one with the next exponent
    have hnext : significands * e + (f + 1) = significands * (e + 1) + 0 := by
      rw [heq]
      ring
    rw [hnext, unitsOf_eq (e + 1) 0 hpos, if_neg (Nat.succ_ne_zero e), ← heq]
    cases e with
    | zero => simp
    | succ e =>
      simp only [Nat.add_sub_cancel, if_neg (Nat.succ_ne_zero e), Nat.pow_succ]
      ring

theorem unitsOf_mono : Monotone unitsOf :=
  monotone_nat_of_le_succ fun m => unitsOf_succ m ▸ Nat.le_add_right ..

theorem unitsOf_succ_le (m : Nat) : unitsOf (m + 1) ≤ 2 ^ 53 * gap m := by
  have hpos : 0 < significands := by decide
  rw [unitsOf_succ, gap]
  have hm := Nat.div_add_mod m significands
  have hf := Nat.mod_lt m hpos
  generalize m / significands = e at hm
  generalize m % significands = f at hm hf
  subst hm
  rw [unitsOf_eq e f hf]
  split_ifs with h0
  · subst h0
    simp only [significands] at hf
    omega
  · have hle : (f + significands) + 1 ≤ 2 ^ 53 := by
      simp only [significands] at hf ⊢
      omega
    calc (f + significands) * 2 ^ (e - 1) + 2 ^ (e - 1)
        = ((f + significands) + 1) * 2 ^ (e - 1) := by ring
      _ ≤ 2 ^ 53 * 2 ^ (e - 1) := Nat.mul_le_mul_right _ hle

/-! ## The grid of a fraction -/

/-- The exponent of the grid on which `n / d` units lie. -/
def gridOf (n d : Nat) : Nat :=
  if n < d * 2 ^ (n.log2 - d.log2 - 53 + 53) then n.log2 - d.log2 - 53 else n.log2 - d.log2 - 53 + 1

/-- A fraction has at most 53 digits on its grid, and on the next finer one it has more. -/
theorem gridOf_spec (n : Nat) {d : Nat} (hd : 0 < d) :
    n < d * 2 ^ (gridOf n d + 53) ∧ (gridOf n d = 0 ∨ d * 2 ^ (gridOf n d + 52) ≤ n) := by
  have hd' := Nat.log2_self_le hd.ne'
  rw [gridOf]
  split_ifs with hlt
  · refine ⟨hlt, or_iff_not_imp_left.mpr fun hg => ?_⟩
    have hn : n ≠ 0 := by
      rintro rfl
      simp at hg
    calc d * 2 ^ (n.log2 - d.log2 - 53 + 52)
        ≤ 2 ^ (d.log2 + 1) * 2 ^ (n.log2 - d.log2 - 53 + 52) :=
          Nat.mul_le_mul_right _ Nat.lt_log2_self.le
      _ = 2 ^ n.log2 := by rw [← Nat.pow_add]; congr 1; omega
      _ ≤ n := Nat.log2_self_le hn
  · refine ⟨?_, .inr (Nat.not_lt.mp hlt)⟩
    calc n < 2 ^ (n.log2 + 1) := Nat.lt_log2_self
      _ ≤ 2 ^ (d.log2 + (n.log2 - d.log2 - 53 + 1 + 53)) :=
          Nat.pow_le_pow_right (by decide) (by omega)
      _ = 2 ^ d.log2 * 2 ^ (n.log2 - d.log2 - 53 + 1 + 53) := Nat.pow_add ..
      _ ≤ d * 2 ^ (n.log2 - d.log2 - 53 + 1 + 53) := Nat.mul_le_mul_right _ hd'

theorem gridOf_mono {n n' d : Nat} (hd : 0 < d) (h : n ≤ n') : gridOf n d ≤ gridOf n' d := by
  obtain ⟨hlt, -⟩ := gridOf_spec n' hd
  obtain ⟨-, hzero | hle⟩ := gridOf_spec n hd
  · omega
  · have hpow := (Nat.mul_lt_mul_left hd).mp (hle.trans_lt (h.trans_lt hlt))
    have hexp := (Nat.pow_lt_pow_iff_right (by decide)).mp hpow
    omega

/-- What `n / d` units are rounded to on their grid. -/
def roundOn (n d : Nat) : Nat := gridOf n d * significands + roundQuotient n (d * 2 ^ gridOf n d)

theorem roundOn_mono {n n' d : Nat} (hd : 0 < d) (h : n ≤ n') : roundOn n d ≤ roundOn n' d := by
  have hpos (e : Nat) : 0 < d * 2 ^ e := Nat.mul_pos hd (Nat.two_pow_pos e)
  rcases (gridOf_mono hd h).lt_or_eq with hlt | heq
  · -- the power of two between the grids lies on both of them
    obtain ⟨hfew, -⟩ := gridOf_spec n hd
    obtain ⟨-, hzero | hmany⟩ := gridOf_spec n' hd
    · omega
    have hlow : roundQuotient n (d * 2 ^ gridOf n d) ≤ 2 ^ 53 :=
      roundQuotient_le (hpos _) (by rw [Nat.mul_assoc, ← Nat.pow_add]; exact hfew.le)
    have hhigh : 2 ^ 52 ≤ roundQuotient n' (d * 2 ^ gridOf n' d) :=
      le_roundQuotient (hpos _) (by rw [Nat.mul_assoc, ← Nat.pow_add]; exact hmany)
    have hexp := Nat.mul_le_mul_right significands (Nat.add_one_le_of_lt hlt)
    calc roundOn n d
        ≤ gridOf n d * significands + 2 ^ 53 := Nat.add_le_add_left hlow _
      _ = (gridOf n d + 1) * significands + 2 ^ 52 := by
          simp only [significands]
          ring
      _ ≤ gridOf n' d * significands + 2 ^ 52 := Nat.add_le_add_right hexp _
      _ ≤ roundOn n' d := Nat.add_le_add_left hhigh _
  · rw [roundOn, roundOn, heq]
    exact Nat.add_le_add_left (roundQuotient_mono h) _

theorem nearestMagnitude_eq (n d : Nat) :
    nearestMagnitude n d = min infinite (roundOn (n * one) d) :=
  rfl

/-- **Rounding is monotone.** -/
theorem nearestMagnitude_mono {n n' d : Nat} (hd : 0 < d) (h : n ≤ n') :
    nearestMagnitude n d ≤ nearestMagnitude n' d := by
  rw [nearestMagnitude_eq, nearestMagnitude_eq]
  exact min_le_min_left _ (roundOn_mono hd (Nat.mul_le_mul_right one h))

/-! ## Operations -/

theorem magnitude_signed (negative : Bool) {m : Nat} (h : m < signBit) :
    (signed negative m).magnitude = m := by
  have hbits : (signed negative m).bits.toNat = m + if negative then signBit else 0 := by
    rw [signed, Nat.mod_eq_of_lt h, UInt64.toNat_ofNat']
    simp only [signBit] at h ⊢
    split_ifs <;> omega
  rw [magnitude, hbits]
  split_ifs
  · rw [Nat.add_mod_right, Nat.mod_eq_of_lt h]
  · exact Nat.mod_eq_of_lt h

theorem magnitude_nearest (negative : Bool) (n d : Nat) :
    (nearest negative n d).magnitude = nearestMagnitude n d :=
  magnitude_signed negative ((nearestMagnitude_eq n d ▸ min_le_left ..).trans_lt (by decide))

theorem natAbs_units (d : Double) : d.units.natAbs = unitsOf d.magnitude := by
  unfold units
  split_ifs <;> simp

theorem magnitude_mul (a b : Double) :
    (a.mul b).magnitude =
      nearestMagnitude (unitsOf a.magnitude * unitsOf b.magnitude) (one * one) := by
  rw [mul, magnitude_nearest, natAbs_units, natAbs_units]

theorem magnitude_ofNat_mono {n m : Nat} (h : n ≤ m) :
    (ofNat n).magnitude ≤ (ofNat m).magnitude := by
  rw [ofNat, ofNat, magnitude_nearest, magnitude_nearest]
  exact nearestMagnitude_mono Nat.one_pos h

theorem magnitude_mul_mono {a a' b b' : Double} (ha : a.magnitude ≤ a'.magnitude)
    (hb : b.magnitude ≤ b'.magnitude) : (a.mul b).magnitude ≤ (a'.mul b').magnitude := by
  rw [magnitude_mul, magnitude_mul]
  exact nearestMagnitude_mono (Nat.mul_pos one_pos one_pos)
    (Nat.mul_le_mul (unitsOf_mono ha) (unitsOf_mono hb))

end Double

end BotFleet
