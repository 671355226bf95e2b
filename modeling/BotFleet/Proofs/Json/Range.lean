import BotFleet.Proofs.Json.Grammar
import BotFleet.Proofs.Number.Shortest

/-!
# Numbers in range

The leading digits of a number are rounded before they are scaled, and the result once more. So a
number may become too large while it is read only if it is near the largest double.

* `Json.exists_absorb`: the digits that fit a word;
* `Json.scale_isSome_of_checks`: which whole numbers can be scaled, by a check for each exponent;
* `Json.scale_isSome_short`: seventeen digits at most, and not above the largest double;
* `Json.leading_le`: the digits that are dropped make a number no smaller;
* `Json.Numeral.value?_isSome_of_scale`: a number has a value if its leading digits can be scaled;
* **`Json.Numeral.value?_isSome`**: numbers up to `1.797693134862315e308` have a value.
-/

namespace BotFleet.Json

open Nat (ofDigitChars)
open Double (largest unitsOf one Below below_add)

/-! ## Digits -/

theorem valueOf_append (ds ds' : List Char) :
    valueOf (ds ++ ds') = ofDigitChars 10 ds' (valueOf ds) :=
  Nat.ofDigitChars_append 0

theorem mul_pow_le_ofDigitChars (n : Nat) (ds : List Char) :
    n * 10 ^ ds.length ≤ ofDigitChars 10 ds n := by
  rw [Nat.ofDigitChars_eq_ofDigitChars_zero, Nat.mul_comm]
  exact Nat.le_add_right ..

/-- The digits that are taken fit a word, and with the next digit they would not. -/
theorem exists_absorb {n : Nat} (hn : n ≤ wordMax) (ds : List Char) : ∃ taken rest,
    ds = taken ++ rest ∧ absorb n ds = (ofDigitChars 10 taken n, taken.length) ∧
      ofDigitChars 10 taken n ≤ wordMax ∧
      ∀ c ∈ rest.head?, wordMax < 10 * ofDigitChars 10 taken n + digitValue c := by
  induction ds generalizing n with
  | nil => exact ⟨[], [], rfl, rfl, hn, nofun⟩
  | cons c ds ih =>
    by_cases hle : 10 * n + digitValue c ≤ wordMax
    · obtain ⟨taken, rest, rfl, habsorb, hword, hnext⟩ := ih hle
      refine ⟨c :: taken, rest, rfl, ?_, hword, hnext⟩
      rw [absorb, if_pos hle, habsorb]
      rfl
    · refine ⟨[], c :: ds, rfl, if_neg hle, hn, fun c' hc => ?_⟩
      obtain rfl := Option.some.inj hc
      exact Nat.lt_of_not_le hle

/-! ## Scaling -/

theorem scale_isSome_of_neg (n : Nat) {e : Int} (he : e < 0) : (scale n e).isSome := by
  unfold scale
  simp only [if_pos he, Option.isSome_some]

theorem scale_isSome_of_le {n m e e' : Nat} (hn : n ≤ m) (he : e ≤ e') (h : (scale m e').isSome) :
    (scale n e).isSome := by
  have hneg (e : Nat) : ¬(e : Int) < 0 := by omega
  unfold scale at h ⊢
  simp only [if_neg (hneg _), Int.natAbs_natCast] at h ⊢
  split_ifs with hn0 hstep hinf
  · rfl
  · rw [if_neg (by omega), if_pos (by omega)] at h
    cases h
  · -- the larger product would be infinite, too
    have hpower : (powerOfTen e).magnitude ≤ (powerOfTen e').magnitude :=
      Double.magnitude_ofNat_mono (Nat.pow_le_pow_right (by decide) he)
    have hle := Double.magnitude_mul_mono (Double.magnitude_ofNat_mono hn) hpower
    have hmax : ((Double.ofNat m).mul (powerOfTen e')).magnitude ≤ Double.infinite := by
      rw [Double.magnitude_mul]
      exact min_le_left ..
    have hinf' : ((Double.ofNat m).mul (powerOfTen e')).isInfinite = true := by
      simp only [Double.isInfinite, decide_eq_true_eq] at hinf ⊢
      omega
    rw [if_neg (by omega), if_pos hinf'] at h
    split at h <;> cases h
  · rfl

/-- Up to the exponent `e₀` the digits have a bound of their own, and above it the largest ones are
given by the bound on the value. -/
theorem scale_isSome_of_checks (e₀ count : Nat) {most limit : Nat}
    (hlimit : limit < one * 10 ^ (e₀ + 1 + count)) (hlow : (scale most e₀).isSome)
    (hhigh : ∀ k < count, (scale (limit / (one * 10 ^ (e₀ + 1 + k))) (e₀ + 1 + k : Nat)).isSome)
    {n : Nat} {p : Int} (hn : n ≤ most) (h : Below (n * one) p limit) : (scale n p).isSome := by
  rcases lt_or_ge p 0 with hneg | hpos
  · exact scale_isSome_of_neg n hneg
  obtain ⟨e, rfl⟩ := Int.eq_ofNat_of_zero_le hpos
  rcases Nat.eq_zero_or_pos n with rfl | hn0
  · simp [scale, apply_ite Option.isSome]
  have hle : n * (one * 10 ^ e) ≤ limit := by
    simpa [Below, Double.tenTo, Nat.mul_assoc] using h
  have he : e < e₀ + 1 + count := by
    have hfactor := Nat.le_mul_of_pos_left (one * 10 ^ e) hn0
    have hlt := (hfactor.trans hle).trans_lt hlimit
    exact (Nat.pow_lt_pow_iff_right (by decide)).mp ((Nat.mul_lt_mul_left Double.one_pos).mp hlt)
  rcases le_or_gt e e₀ with hlow' | hhigh'
  · exact scale_isSome_of_le hn hlow' hlow
  · obtain ⟨k, rfl⟩ := Nat.exists_eq_add_of_le (Nat.succ_le_of_lt hhigh')
    have hone : 0 < one * 10 ^ (e₀ + 1 + k) := Nat.mul_pos Double.one_pos (Nat.pow_pos (by decide))
    exact scale_isSome_of_le ((Nat.le_div_iff_mul_le hone).mpr hle) le_rfl (hhigh k (by omega))

theorem largest_lt : unitsOf largest < one * 10 ^ (291 + 1 + 17) := by decide +kernel

/-- **A whole number of seventeen digits at most does not become too large** if it stands for
nothing above the largest double. -/
theorem scale_isSome_short {n : Nat} {p : Int} (hn : n ≤ 10 ^ 17)
    (h : Below (n * one) p (unitsOf largest)) : (scale n p).isSome :=
  scale_isSome_of_checks 291 17 largest_lt (by decide +kernel) (by decide +kernel) hn h

/-- No number up to this one becomes too large while it is read; it is near the largest double. -/
def ceiling : Nat := 1797693134862315 * 10 ^ 293 * one

theorem word_le_ceiling : wordMax * one ≤ ceiling := by decide +kernel

theorem ceiling_lt : ceiling < one * 10 ^ (288 + 1 + 20) := by decide +kernel

/-- **A word does not become too large** if it stands for nothing above `ceiling`. -/
theorem scale_isSome_word {n : Nat} {p : Int} (hn : n ≤ wordMax) (h : Below (n * one) p ceiling) :
    (scale n p).isSome :=
  scale_isSome_of_checks 288 20 ceiling_lt (by decide +kernel) (by decide +kernel) hn h

/-! ## Values -/

/-- The digits that are taken, before the point and after it, followed by zeros are at most the
number. Digits after the point may be taken although some before it are not: then these were
larger. -/
theorem leading_le {whole rest fraction rest' : List Char}
    (hnext : ∀ c ∈ rest.head?, wordMax < 10 * valueOf whole + digitValue c)
    (hword : ofDigitChars 10 fraction (valueOf whole) ≤ wordMax) :
    ofDigitChars 10 fraction (valueOf whole) * 10 ^ (rest.length + rest'.length) ≤
      valueOf (whole ++ rest ++ (fraction ++ rest')) := by
  rw [valueOf_append, valueOf_append]
  cases rest with
  | nil =>
    rw [List.length_nil, Nat.zero_add, Nat.ofDigitChars_append]
    exact mul_pow_le_ofDigitChars ..
  | cons c rest =>
    have hcut (ds : List Char) :
        (10 * valueOf whole + digitValue c) * 10 ^ (rest.length + ds.length) ≤
          ofDigitChars 10 ds (ofDigitChars 10 (c :: rest) (valueOf whole)) := by
      rw [← Nat.ofDigitChars_append, ← List.length_append]
      exact mul_pow_le_ofDigitChars (10 * valueOf whole + digitValue c) (rest ++ ds)
    refine le_trans ?_ (hcut (fraction ++ rest'))
    cases fraction with
    | nil =>
      calc valueOf whole * 10 ^ (rest.length + 1 + rest'.length)
          = 10 * valueOf whole * 10 ^ (rest.length + rest'.length) := by ring
        _ ≤ (10 * valueOf whole + digitValue c) * 10 ^ (rest.length + rest'.length) :=
            Nat.mul_le_mul_right _ (Nat.le_add_right ..)
    | cons d fraction =>
      refine Nat.mul_le_mul (hword.trans (hnext c rfl).le) (Nat.pow_le_pow_right (by decide) ?_)
      simp only [List.length_cons, List.length_append]
      omega

namespace Numeral

/-- The digits of a number, those of its fraction included. -/
def digits (n : Numeral) : List Char := n.whole ++ n.fraction.getD []

/-- The power of ten that the last digit stands for. -/
def place (n : Numeral) : Int :=
  (n.exponent.map Exponent.value).getD 0 - (n.fraction.getD []).length

theorem value?_isSome_of_scale {n : Numeral} {limit : Nat}
    (hscale : ∀ m p, m ≤ wordMax → m ≤ valueOf n.digits → Below (m * one) p limit →
      (scale m p).isSome)
    (h : Below (valueOf n.digits * one) n.place limit) : n.value?.isSome := by
  obtain ⟨taken, rest, hwhole, hfirst, hle, hnext⟩ := exists_absorb (Nat.zero_le _) n.whole
  obtain ⟨taken', rest', hfraction, hsecond, hword, -⟩ := exists_absorb hle (n.fraction.getD [])
  unfold value? numberOf
  simp only [hfirst, hsecond]
  split
  · rfl
  rw [Option.isSome_map]
  have hplace : (n.exponent.map Exponent.value).getD 0 +
      ((n.whole.length - taken.length : Nat) : Int) - taken'.length =
        n.place + (rest.length + rest'.length : Nat) := by
    simp only [place, hwhole, hfraction, List.length_append]
    omega
  have hleading : ofDigitChars 10 taken' (ofDigitChars 10 taken 0) *
      10 ^ (rest.length + rest'.length) ≤ valueOf n.digits := by
    rw [digits, hwhole, hfraction]
    exact leading_le hnext hword
  rw [hplace]
  refine hscale _ _ hword ((Nat.le_mul_of_pos_right _ (Nat.pow_pos (by decide))).trans hleading) ?_
  rw [below_add, Nat.mul_right_comm]
  exact h.of_le (Nat.mul_le_mul_right one hleading)

theorem value?_isSome_short {n : Numeral} (hn : valueOf n.digits ≤ 10 ^ 17)
    (h : Below (valueOf n.digits * one) n.place (unitsOf largest)) : n.value?.isSome :=
  value?_isSome_of_scale (fun _ _ _ hm => scale_isSome_short (hm.trans hn)) h

/-- The absolute value of a number is not above `ceiling`. -/
def InRange (n : Numeral) : Prop := Below (valueOf n.digits * one) n.place ceiling

/-- **A number in range has a value**, however many digits it has. -/
theorem value?_isSome {n : Numeral} (h : n.InRange) : n.value?.isSome :=
  value?_isSome_of_scale (fun _ _ hm _ => scale_isSome_word hm) h

end Numeral

end BotFleet.Json
