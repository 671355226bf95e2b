import Mathlib.Algebra.BigOperators.Fin
import Mathlib.Data.FinEnum
import Mathlib.Data.Set.Card.Arithmetic
import Mathlib.Data.Set.Finite.List
import Mathlib.Tactic.Ring
import BotFleet.Routine.Chance

/-!
# How often each line is drawn

A word is accepted if the lower half of its product with the number of lines is small enough, and
the upper half is its line. The accepted words of a line follow one another, and each line has as
many of them.

* `Chance.Accepted`, `Chance.lineOf?_eq_none_iff`: the words that have a line;
* **`Chance.lineOf?_eq_some_iff`**: the words of a line are a stretch of `2 ^ 61` numbers;
* `Chance.ncard_line`, `Chance.ncard_rejected`: how many words have a given line, or none;
* `Chance.FirstAccepted.drawLine_eq`: of some words those up to the first accepted one are used;
* `Chance.ncard_draws_succ`, **`Chance.ncard_draws`**: how many rows of words lead to a line;
* **`Chance.lines_equally_likely`**: the law of the lines.
-/

namespace BotFleet.Chance

/-! ## The words of a line -/

/-- A word that has a line: the lower half of its product with the number of lines is small. -/
def Accepted (w : UInt64) : Prop := w.toNat * 5 % 2 ^ 64 ≤ 0x9fffffffffffffff

instance (w : UInt64) : Decidable (Accepted w) := inferInstanceAs (Decidable (_ ≤ _))

theorem lineOf?_of_accepted {w : UInt64} (h : Accepted w) :
    lineOf? w = some (Fin.ofNat 5 (w.toNat * 5 / 2 ^ 64)) :=
  if_pos h

theorem lineOf?_eq_none_iff {w : UInt64} : lineOf? w = none ↔ ¬ Accepted w := by
  refine ⟨fun h ha => ?_, fun h => if_neg h⟩
  rw [lineOf?_of_accepted ha] at h
  cases h

theorem upper_lt (w : UInt64) : w.toNat * 5 / 2 ^ 64 < 5 := by
  have hw := w.toNat_lt
  omega

/-- The first word of a line. -/
def firstWord (i : Fin 5) : Nat := (2 ^ 64 * i + 4) / 5

/-- **The words of a line are a stretch of `2 ^ 61` numbers.** Their products are the multiples of
five among the `5 * 2 ^ 61` numbers from `2 ^ 64 * i` on. -/
theorem lineOf?_eq_some_iff {w : UInt64} {i : Fin 5} :
    lineOf? w = some i ↔ w.toNat ∈ Set.Ico (firstWord i) (firstWord i + 2 ^ 61) := by
  have hi := i.isLt
  have hstretch : Accepted w ∧ w.toNat * 5 / 2 ^ 64 = i ↔
      2 ^ 64 * (i : Nat) ≤ w.toNat * 5 ∧ w.toNat * 5 < 2 ^ 64 * (i : Nat) + 5 * 2 ^ 61 := by
    unfold Accepted
    refine ⟨by omega, fun h => ?_⟩
    have hupper : w.toNat * 5 / 2 ^ 64 = i := by omega
    omega
  have hline : lineOf? w = some i ↔ Accepted w ∧ w.toNat * 5 / 2 ^ 64 = i := by
    by_cases ha : Accepted w
    · rw [lineOf?_of_accepted ha, Option.some_inj, Fin.ext_iff, Fin.val_ofNat,
        Nat.mod_eq_of_lt (upper_lt w), and_iff_right ha]
    · rw [lineOf?_eq_none_iff.mpr ha]
      simp [ha]
  rw [hline, hstretch, Set.mem_Ico, firstWord]
  omega

theorem ncard_line (i : Fin 5) : {w | lineOf? w = some i}.ncard = 2 ^ 61 := by
  have himage : UInt64.toNat '' {w | lineOf? w = some i} =
      Finset.Ico (firstWord i) (firstWord i + 2 ^ 61) := by
    ext n
    simp only [Set.mem_image, Set.mem_ofPred_eq, lineOf?_eq_some_iff, Finset.coe_Ico]
    refine ⟨?_, fun hn => ⟨UInt64.ofNat n, ?_⟩⟩
    · rintro ⟨w, hw, rfl⟩
      exact hw
    · have hi := i.isLt
      have hlt : n < UInt64.size := by
        have h := (Set.mem_Ico.mp hn).2
        rw [firstWord] at h
        exact Nat.lt_of_lt_of_le h (by simp only [UInt64.size]; omega)
      rw [UInt64.toNat_ofNat_of_lt' hlt]
      exact ⟨hn, rfl⟩
  rw [← Set.ncard_image_of_injective _ fun _ _ => UInt64.toNat.inj, himage, Set.ncard_coe_finset,
    Nat.card_Ico, Nat.add_sub_cancel_left]

theorem card_words : Nat.card UInt64 = 2 ^ 64 := by
  rw [Nat.card_eq_fintype_card, ← FinEnum.card_eq_fintypeCard, FinEnum.card_UInt64]

/-- Three words of eight have no line. -/
theorem ncard_rejected : {w | lineOf? w = none}.ncard = 3 * 2 ^ 61 := by
  have hcompl : {w | lineOf? w = none}ᶜ = ⋃ i, {w | lineOf? w = some i} := by
    ext w
    simp only [Set.mem_compl_iff, Set.mem_ofPred_eq, Set.mem_iUnion, Option.ne_none_iff_exists']
  have hdisjoint : Pairwise (Function.onFun Disjoint fun i => {w | lineOf? w = some i}) := by
    refine fun i j hne => Set.disjoint_left.mpr fun w hi hj => hne ?_
    exact Option.some.inj (hi.symm.trans hj)
  have haccepted : {w | lineOf? w = none}ᶜ.ncard = 5 * 2 ^ 61 := by
    rw [hcompl, Set.ncard_iUnion_of_finite (fun _ => Set.toFinite _) hdisjoint,
      finsum_eq_sum_of_fintype]
    simp only [ncard_line, Fin.sum_const, smul_eq_mul]
  have hall := Set.ncard_add_ncard_compl {w | lineOf? w = none}
  rw [haccepted, card_words] at hall
  exact Nat.add_right_cancel (m := 5 * 2 ^ 61) hall

/-! ## Rows of words -/

theorem drawLine_of_line {w : UInt64} {i : Fin 5} (h : lineOf? w = some i) (rest : List UInt64) :
    drawLine (w :: rest) = some (i, rest) := by
  rw [drawLine, h]

theorem drawLine_of_rejected {w : UInt64} (h : lineOf? w = none) (rest : List UInt64) :
    drawLine (w :: rest) = drawLine rest := by
  rw [drawLine, h]

theorem drawLine_append {skipped : List UInt64} (h : ∀ v ∈ skipped, lineOf? v = none)
    (words : List UInt64) : drawLine (skipped ++ words) = drawLine words := by
  induction skipped with
  | nil => rfl
  | cons v skipped ih =>
    obtain ⟨hv, hskipped⟩ := List.forall_mem_cons.mp h
    rw [List.cons_append, drawLine_of_rejected hv, ih hskipped]

/-- The first accepted one of some words, and the words after it. -/
def FirstAccepted (words : List UInt64) (w : UInt64) (rest : List UInt64) : Prop :=
  Accepted w ∧ ∃ skipped, (∀ v ∈ skipped, ¬ Accepted v) ∧ words = skipped ++ w :: rest

theorem exists_firstAccepted {words : List UInt64} (h : ∃ w ∈ words, Accepted w) :
    ∃ w rest, FirstAccepted words w rest := by
  have hfind : (words.find? fun w => decide (Accepted w)).isSome := by simpa using h
  obtain ⟨w, hw⟩ := Option.isSome_iff_exists.mp hfind
  obtain ⟨hw, skipped, rest, hwords, hskipped⟩ := List.find?_eq_some_iff_append.mp hw
  exact ⟨w, rest, of_decide_eq_true hw, skipped, by simpa using hskipped, hwords⟩

/-- The words up to the first accepted one are used, and no others. -/
theorem FirstAccepted.drawLine_eq {words rest : List UInt64} {w : UInt64}
    (h : FirstAccepted words w rest) (later : List UInt64) :
    drawLine (words ++ later) = some (Fin.ofNat 5 (w.toNat * 5 / 2 ^ 64), rest ++ later) := by
  obtain ⟨hw, skipped, hskipped, rfl⟩ := h
  rw [List.append_assoc, drawLine_append fun v hv => lineOf?_eq_none_iff.mpr (hskipped v hv),
    List.cons_append, drawLine_of_line (lineOf?_of_accepted hw)]

/-! ## How many rows of words lead to a line -/

/-- The rows of some number of words. -/
def rows (n : Nat) : Set (List UInt64) := {words | words.length = n}

/-- The rows of some number of words that lead to a line. -/
def draws (n : Nat) (i : Fin 5) : Set (List UInt64) :=
  {words | words.length = n ∧ ∃ rest, drawLine words = some (i, rest)}

/-- The rows with a first word of one kind and others of another. -/
def rowsOf (first : Set UInt64) (others : Set (List UInt64)) : Set (List UInt64) :=
  (fun row : UInt64 × List UInt64 => row.1 :: row.2) '' first ×ˢ others

theorem cons_mem_rowsOf {first : Set UInt64} {others : Set (List UInt64)} {w : UInt64}
    {words : List UInt64} : w :: words ∈ rowsOf first others ↔ w ∈ first ∧ words ∈ others := by
  simp [rowsOf]

theorem nil_not_mem_rowsOf {first : Set UInt64} {others : Set (List UInt64)} :
    [] ∉ rowsOf first others := by
  simp [rowsOf]

theorem ncard_rowsOf (first : Set UInt64) (others : Set (List UInt64)) :
    (rowsOf first others).ncard = first.ncard * others.ncard := by
  have hinjective : Function.Injective fun row : UInt64 × List UInt64 => row.1 :: row.2 := by
    rintro ⟨w, words⟩ ⟨v, words'⟩ h
    obtain ⟨rfl, rfl⟩ := List.cons.inj h
    rfl
  rw [rowsOf, Set.ncard_image_of_injective _ hinjective, Set.ncard_prod]

theorem ncard_rows (n : Nat) : (rows n).ncard = (2 ^ 64) ^ n := by
  induction n with
  | zero =>
    have hnil : rows 0 = {[]} := by ext words; simp [rows]
    rw [hnil, Set.ncard_singleton, pow_zero]
  | succ n ih =>
    have hsucc : rows (n + 1) = rowsOf Set.univ (rows n) := by
      ext words
      cases words with
      | nil => simp [rows, nil_not_mem_rowsOf]
      | cons w words => simp [rows, cons_mem_rowsOf]
    rw [hsucc, ncard_rowsOf, Set.ncard_univ, card_words, ih, pow_succ' _ n]

theorem finite_rows (n : Nat) : (rows n).Finite := List.finite_length_eq ..

/-- A row leads to a line if its first word is one of the line, or has none and the others lead
there. -/
theorem draws_succ (n : Nat) (i : Fin 5) :
    draws (n + 1) i =
      rowsOf {w | lineOf? w = some i} (rows n) ∪ rowsOf {w | lineOf? w = none} (draws n i) := by
  ext words
  cases words with
  | nil => simp [draws, nil_not_mem_rowsOf]
  | cons w words =>
    rw [Set.mem_union, cons_mem_rowsOf, cons_mem_rowsOf]
    cases hw : lineOf? w with
    | none => simp [draws, drawLine_of_rejected hw, hw]
    | some j => simp [draws, rows, drawLine_of_line hw, hw, and_comm]

theorem ncard_draws_succ (n : Nat) (i : Fin 5) :
    (draws (n + 1) i).ncard = 2 ^ 61 * (2 ^ 64) ^ n + 3 * 2 ^ 61 * (draws n i).ncard := by
  have hdisjoint : Disjoint (rowsOf {w | lineOf? w = some i} (rows n))
      (rowsOf {w | lineOf? w = none} (draws n i)) := by
    refine Set.disjoint_left.mpr fun words hsome hnone => ?_
    cases words with
    | nil => exact nil_not_mem_rowsOf hsome
    | cons w words =>
      have hw : lineOf? w = some i := (cons_mem_rowsOf.mp hsome).1
      have hw' : lineOf? w = none := (cons_mem_rowsOf.mp hnone).1
      rw [hw] at hw'
      cases hw'
  have hfinite : (draws (n + 1) i).Finite := (finite_rows (n + 1)).subset fun _ h => h.1
  rw [draws_succ] at hfinite ⊢
  obtain ⟨hline, hrejected⟩ := Set.finite_union.mp hfinite
  rw [Set.ncard_union_eq hdisjoint hline hrejected, ncard_rowsOf, ncard_rowsOf, ncard_line,
    ncard_rejected, ncard_rows]

/-- **As many rows lead to each line**, and all others hold rejected words only. -/
theorem ncard_draws (n : Nat) (i : Fin 5) :
    5 * (draws n i).ncard + (3 * 2 ^ 61) ^ n = (2 ^ 64) ^ n := by
  induction n with
  | zero =>
    have hempty : draws 0 i = ∅ := by
      refine Set.eq_empty_of_forall_notMem fun words h => ?_
      obtain ⟨hlength, rest, hdraw⟩ := h
      rw [List.length_eq_zero_iff.mp hlength] at hdraw
      cases hdraw
    rw [hempty, Set.ncard_empty]
    rfl
  | succ n ih =>
    rw [ncard_draws_succ, pow_succ' (2 ^ 64) n, ← ih]
    ring

/-! ## The law of the lines -/

/-- The line that some words lead to, and the words after it. -/
def drawText (words : List UInt64) : Option (String × List UInt64) :=
  (drawLine words).map fun drawn => (chatLines[drawn.1], drawn.2)

theorem chatLines_injective : Function.Injective fun i : Fin 5 => chatLines[i] := by
  decide

theorem drawText_eq_some_iff {words rest : List UInt64} {i : Fin 5} :
    drawText words = some (chatLines[i], rest) ↔ drawLine words = some (i, rest) := by
  rw [drawText, Option.map_eq_some_iff]
  constructor
  · rintro ⟨⟨j, rest'⟩, hdraw, h⟩
    obtain ⟨hline, rfl⟩ := Prod.mk.inj h
    have hji : j = i := chatLines_injective hline
    rw [hdraw, hji]
  · exact fun hdraw => ⟨(i, rest), hdraw, rfl⟩

/-- **Each line is equally likely.**

* Of some words that are not all rejected, those up to the first accepted one are used, whatever
  comes after them. The upper half of its product is the number of a line, and this line is drawn.
* Of all words `2 ^ 61` lead to each line, and the other `3 * 2 ^ 61` are rejected.
* Of all rows of `n` words as many lead to each line, and the others hold rejected words only. -/
theorem lines_equally_likely :
    (∀ words : List UInt64, (∃ w ∈ words, Accepted w) →
      ∃ w rest, FirstAccepted words w rest ∧ ∃ _ : w.toNat * 5 / 2 ^ 64 < 5, ∀ later,
        drawText (words ++ later) = some (chatLines[w.toNat * 5 / 2 ^ 64], rest ++ later)) ∧
      (∀ i : Fin 5, {w | Accepted w ∧ drawText [w] = some (chatLines[i], [])}.ncard = 2 ^ 61) ∧
      {w | ¬ Accepted w}.ncard = 3 * 2 ^ 61 ∧
      ∀ (n : Nat) (i : Fin 5), (3 * 2 ^ 61) ^ n + 5 *
        {words | words.length = n ∧ ∃ rest, drawText words = some (chatLines[i], rest)}.ncard =
          (2 ^ 64) ^ n := by
  refine ⟨fun words h => ?_, fun i => ?_, ?_, fun n i => ?_⟩
  · obtain ⟨w, rest, hfirst⟩ := exists_firstAccepted h
    refine ⟨w, rest, hfirst, upper_lt w, fun later => ?_⟩
    have hupper : Fin.ofNat 5 (w.toNat * 5 / 2 ^ 64) = ⟨w.toNat * 5 / 2 ^ 64, upper_lt w⟩ :=
      Fin.ext (Nat.mod_eq_of_lt (upper_lt w))
    rw [drawText, hfirst.drawLine_eq later, hupper]
    rfl
  · have hwords : {w | Accepted w ∧ drawText [w] = some (chatLines[i], [])} =
        {w | lineOf? w = some i} := by
      ext w
      rw [Set.mem_ofPred_eq, Set.mem_ofPred_eq, drawText_eq_some_iff]
      by_cases hw : Accepted w
      · rw [drawLine_of_line (lineOf?_of_accepted hw), lineOf?_of_accepted hw]
        simp [hw]
      · rw [lineOf?_eq_none_iff.mpr hw]
        simp [hw]
    rw [hwords, ncard_line]
  · simp only [← lineOf?_eq_none_iff]
    exact ncard_rejected
  · simp only [drawText_eq_some_iff]
    rw [Nat.add_comm]
    exact ncard_draws n i

/-- A rejected word is passed over. -/
theorem lines_equally_likely_after_rejected :
    (∃ w ∈ [0x2fffffffffffffff, 0x4000000000000000, 7], Accepted w) ∧
      ∃ w rest, FirstAccepted [0x2fffffffffffffff, 0x4000000000000000, 7] w rest ∧
        ∃ _ : w.toNat * 5 / 2 ^ 64 < 5, ∀ later,
          drawText ([0x2fffffffffffffff, 0x4000000000000000, 7] ++ later) =
            some (chatLines[w.toNat * 5 / 2 ^ 64], rest ++ later) :=
  ⟨by decide, lines_equally_likely.1 _ (by decide)⟩

end BotFleet.Chance
