import BotFleet.Json.Printer
import BotFleet.Proofs.Json.Range

/-!
# Doubles are written as numbers

The text of a finite double is a number of the grammar, and it does not become too large while it is
read.

* `Json.valueOf_digitsOf`, `Json.head_digitsOf`: the digits of a natural;
* `Json.exists_numeral_plain`, `Json.exists_numeral_scientific`: decimals without and with an
  exponent;
* **`Json.exists_numeral`**: the number that is the text of a double;
* **`Json.exists_spells_ofDouble`**: the value of a double's text.
-/

namespace BotFleet.Json

open Nat (ofDigitChars)
open Double (one largest unitsOf shortest Below below_of_nonpos)

/-! ## Digits -/

theorem valueOf_digitsOf (n : Nat) : valueOf (digitsOf n) = n :=
  Nat.ofDigitChars_ten_toDigits

theorem digits_digitsOf (n : Nat) : Digits (digitsOf n) :=
  ⟨Nat.toDigits_ne_nil, fun _ hc => Nat.isDigit_of_mem_toDigits (by decide) (by decide) hc⟩

theorem digitValue_le {c : Char} (h : c.isDigit = true) : digitValue c ≤ 9 := by
  simp only [Char.isDigit, Bool.and_eq_true, decide_eq_true_eq, UInt32.le_iff_toNat_le] at h
  have h9 : c.toNat ≤ 57 := h.2
  simp only [digitValue, Char.reduceToNat]
  omega

theorem ofDigitChars_lt {n : Nat} {ds : List Char} (h : ∀ c ∈ ds, c.isDigit = true) :
    ofDigitChars 10 ds n < (n + 1) * 10 ^ ds.length := by
  induction ds generalizing n with
  | nil => simp
  | cons c ds ih =>
    obtain ⟨hc, hds⟩ := List.forall_mem_cons.mp h
    have hstep : 10 * n + digitValue c + 1 ≤ (n + 1) * 10 := by
      have := digitValue_le hc
      omega
    calc ofDigitChars 10 (c :: ds) n < (10 * n + digitValue c + 1) * 10 ^ ds.length := ih hds
      _ ≤ (n + 1) * 10 * 10 ^ ds.length := Nat.mul_le_mul_right _ hstep
      _ = (n + 1) * 10 ^ (c :: ds).length := by rw [List.length_cons, Nat.pow_succ]; ring

theorem head_digitsOf {n : Nat} (hn : 0 < n) : (digitsOf n).head? ≠ some '0' := by
  intro hzero
  obtain ⟨ds, hds⟩ := List.head?_eq_some_iff.mp hzero
  have hvalue := valueOf_digitsOf n
  have hlow := pow_length_digitsOf_le hn
  have hdigits := (digits_digitsOf n).digit
  rw [hds] at hvalue hlow hdigits
  have hlt : ofDigitChars 10 ds 0 < (0 + 1) * 10 ^ ds.length :=
    ofDigitChars_lt fun c hc => hdigits c (List.mem_cons_of_mem _ hc)
  have hsame : valueOf ('0' :: ds) = ofDigitChars 10 ds 0 := rfl
  rw [List.length_cons] at hlow
  simp only [Nat.add_sub_cancel] at hlow
  omega

/-! ## The text of a double -/

theorem exists_numeral_plain (negative : Bool) {whole fraction : List Char} (hw : Digits whole)
    (hf : Digits fraction) (hhead : whole.head? = some '0' → whole.length = 1)
    (hword : valueOf (whole ++ fraction) ≤ wordMax) :
    ∃ num : Numeral, num.WellFormed ∧ num.value?.isSome ∧ num.text =
      (if negative then ['-'] else []) ++ (whole ++ '.' :: fraction) := by
  refine ⟨⟨negative, whole, some fraction, none⟩, ⟨hw, hhead, by simpa using hf, nofun⟩, ?_, ?_⟩
  · refine Numeral.value?_isSome (below_of_nonpos (by simp [Numeral.place]) ?_)
    exact (Nat.mul_le_mul_right one hword).trans word_le_ceiling
  · simp [Numeral.text, Numeral.fractionText, Numeral.exponentText]

variable {n : Nat}

/-- A decimal below one: zeros stand before its digits. -/
theorem exists_numeral_small (negative : Bool) (hle : n ≤ 10 ^ 17) (zeros : Nat) :
    ∃ num : Numeral, num.WellFormed ∧ num.value?.isSome ∧ num.text =
      (if negative then ['-'] else []) ++
        '0' :: '.' :: (List.replicate zeros '0' ++ digitsOf n) := by
  have hvalue : valueOf (['0'] ++ (List.replicate zeros '0' ++ digitsOf n)) = n := by
    have hzero : valueOf ['0'] = 0 := rfl
    rw [valueOf_append, hzero, Nat.ofDigitChars_append, Nat.ofDigitChars_replicate_zero,
      Nat.mul_zero]
    exact valueOf_digitsOf n
  have hdigits : Digits (List.replicate zeros '0' ++ digitsOf n) := by
    refine ⟨List.append_ne_nil_of_right_ne_nil _ (digits_digitsOf n).nonempty, fun c hc => ?_⟩
    rcases List.mem_append.mp hc with hc | hc
    · rw [List.eq_of_mem_replicate hc]
      rfl
    · exact (digits_digitsOf n).digit c hc
  exact exists_numeral_plain negative ⟨by simp, by simp⟩ hdigits (fun _ => rfl)
    (hvalue ▸ hle.trans (by decide))

/-- A decimal that is at least one, with all digits before the point and some after it. -/
theorem exists_numeral_large (negative : Bool) (hn : 0 < n) (hle : n ≤ 10 ^ 17) {whole : Nat}
    (hpos : 0 < whole) (hwhole : whole ≤ 16) :
    let padded := digitsOf n ++ List.replicate (whole - (digitsOf n).length) '0'
    let fraction := padded.drop whole
    ∃ num : Numeral, num.WellFormed ∧ num.value?.isSome ∧ num.text =
      (if negative then ['-'] else []) ++
        (padded.take whole ++ '.' :: (if fraction.isEmpty then ['0'] else fraction)) := by
  intro padded fraction
  have hlen : padded.length = (digitsOf n).length + (whole - (digitsOf n).length) := by
    simp [padded]
  have hdigits : ∀ c ∈ padded, c.isDigit = true := by
    intro c hc
    rcases List.mem_append.mp hc with hc | hc
    · exact (digits_digitsOf n).digit c hc
    · rw [List.eq_of_mem_replicate hc]
      rfl
  have hw : Digits (padded.take whole) := by
    refine ⟨List.ne_nil_of_length_pos ?_, fun c hc => hdigits c (List.mem_of_mem_take hc)⟩
    rw [List.length_take]
    omega
  have hhead : (padded.take whole).head? ≠ some '0' := by
    obtain ⟨d, ds, hds⟩ := List.exists_cons_of_ne_nil (digits_digitsOf n).nonempty
    have hzero := head_digitsOf hn
    obtain ⟨whole, rfl⟩ : ∃ w, whole = w + 1 := ⟨whole - 1, by omega⟩
    simpa [padded, hds] using hzero
  have hfraction : Digits (if fraction.isEmpty then ['0'] else fraction) := by
    split
    · exact ⟨by simp, by simp⟩
    · rename_i hempty
      exact ⟨by simpa using hempty, fun c hc => hdigits c (List.mem_of_mem_drop hc)⟩
  refine exists_numeral_plain negative hw hfraction (fun h => absurd h hhead) ?_
  split
  · -- all digits stand before the point, sixteen of them at most
    have hzero : ∀ c ∈ padded.take whole ++ ['0'], c.isDigit = true := by
      intro c hc
      rcases List.mem_append.mp hc with hc | hc
      · exact hw.digit c hc
      · rw [List.mem_singleton.mp hc]
        rfl
    have hlt := ofDigitChars_lt (n := 0) hzero
    have hpow : 10 ^ (padded.take whole ++ ['0']).length ≤ 10 ^ 17 := by
      refine Nat.pow_le_pow_right (by decide) ?_
      rw [List.length_append, List.length_take, List.length_singleton]
      omega
    rw [Nat.zero_add, Nat.one_mul] at hlt
    exact (hlt.le.trans hpow).trans (by decide)
  · rename_i hempty
    have hlong : whole < padded.length := by
      simpa [fraction, List.drop_eq_nil_iff] using hempty
    have hpadded : padded = digitsOf n := by
      have hzero : whole - (digitsOf n).length = 0 := by omega
      simp [padded, hzero]
    rw [List.take_append_drop, hpadded, valueOf_digitsOf]
    exact hle.trans (by decide)

/-- A decimal with an exponent: one digit before the point, and the others after it. -/
theorem exists_numeral_scientific (negative : Bool) (hle : n ≤ 10 ^ 17) {p : Int}
    (h : Below (n * one) p (unitsOf largest)) :
    let digits := digitsOf n
    let e := p + digits.length - 1
    ∃ num : Numeral, num.WellFormed ∧ num.value?.isSome ∧ num.text =
      (if negative then ['-'] else []) ++ (digits.take 1 ++
        (if (digits.drop 1).isEmpty then [] else '.' :: digits.drop 1) ++
        'e' :: (if e < 0 then ['-'] else ['+']) ++ digitsOf e.natAbs) := by
  intro digits e
  have hdigits : Digits digits := digits_digitsOf n
  obtain ⟨d, ds, hds⟩ := List.exists_cons_of_ne_nil hdigits.nonempty
  have hvalue : valueOf digits = n := valueOf_digitsOf n
  have hlen : digits.length = ds.length + 1 := by rw [hds, List.length_cons]
  clear_value digits
  subst hds
  let fraction := if ds.isEmpty then none else some ds
  have hfraction : fraction.getD [] = ds := by
    simp only [fraction]
    split <;> simp_all
  let exponent : Exponent := ⟨'e', if e < 0 then ['-'] else ['+'], digitsOf e.natAbs⟩
  have hexponent : exponent.value = e := by
    have habs : valueOf exponent.digits = e.natAbs := valueOf_digitsOf _
    rw [Exponent.value, habs]
    by_cases hneg : e < 0
    · rw [if_pos (show exponent.sign = ['-'] from if_pos hneg)]
      omega
    · rw [if_neg (show exponent.sign ≠ ['-'] from (if_neg hneg).trans_ne (by decide))]
      omega
  refine ⟨⟨negative, [d], fraction, some exponent⟩, ⟨?_, fun _ => rfl, ?_, ?_⟩, ?_, ?_⟩
  · exact ⟨by simp, by simpa using hdigits.digit d⟩
  · intro ds' hds'
    simp only [fraction] at hds'
    split at hds'
    · cases hds'
    · rename_i hempty
      obtain rfl := Option.some.inj hds'
      exact ⟨by simpa using hempty, fun c hc => hdigits.digit c (List.mem_cons_of_mem _ hc)⟩
  · rintro e' he'
    obtain rfl := Option.some.inj he'
    refine ⟨.inl rfl, ?_, digits_digitsOf _⟩
    simp only [exponent]
    split <;> simp
  · have hplace : e - (ds.length : Int) = p := by
      simp only [e, hlen]
      omega
    refine Numeral.value?_isSome_short ?_ ?_
    · rwa [Numeral.digits, hfraction, List.singleton_append, hvalue]
    · rwa [Numeral.digits, Numeral.place, hfraction, List.singleton_append, hvalue, Option.map_some,
        Option.getD_some, hexponent, hplace]
  · simp only [Numeral.text, Numeral.fractionText, Numeral.exponentText, fraction, exponent,
      Exponent.text, Option.map_some, Option.getD_some]
    cases ds <;> simp

/-- **The text of a finite double is a number**, and one that does not become too large. -/
theorem exists_numeral {d : Double} (hd : d.isFinite = true) :
    ∃ num : Numeral, num.WellFormed ∧ num.value?.isSome ∧ num.text = numberLayout.double d := by
  unfold Layout.double
  simp only
  by_cases hzero : d.magnitude = 0
  · have hdigit : Digits ['0'] := ⟨by simp, by simp⟩
    rw [if_pos hzero]
    exact exists_numeral_plain d.negative hdigit hdigit (fun _ => rfl) (by decide)
  · rw [if_neg hzero]
    have hfinite : d.magnitude < Double.infinite := by simpa [Double.isFinite] using hd
    obtain ⟨hn, hle, hbelow⟩ := Double.shortest_spec (Nat.pos_of_ne_zero hzero) hfinite
    generalize shortest d.magnitude = r at hn hle hbelow ⊢
    obtain ⟨n, p⟩ := r
    have hscientific := exists_numeral_scientific d.negative hle hbelow
    simp only at hn hle hscientific ⊢
    generalize p + (digitsOf n).length - 1 = e at hscientific ⊢
    unfold Layout.text
    simp only [numberLayout, if_true]
    by_cases hplain : -5 ≤ e ∧ e ≤ 15
    · rw [if_pos hplain]
      by_cases hneg : e < 0
      · rw [if_pos hneg]
        exact exists_numeral_small d.negative hle _
      · rw [if_neg hneg]
        exact exists_numeral_large d.negative hn hle (by omega) (by omega)
    · rw [if_neg hplain]
      exact hscientific

theorem exists_spells_ofDouble (d : Double) : ∃ v, Spells 0 (.value v) (ofDouble d) := by
  unfold ofDouble
  split
  · rename_i hd
    obtain ⟨num, hnum, hvalue, htext⟩ := exists_numeral hd
    obtain ⟨v, hv⟩ := Option.isSome_iff_exists.mp hvalue
    exact ⟨v, htext ▸ .number num hnum hv⟩
  · exact ⟨.null, .null⟩

end BotFleet.Json
