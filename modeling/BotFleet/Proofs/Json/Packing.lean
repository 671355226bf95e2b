import BotFleet.Proofs.Json.Decimal
import BotFleet.Proofs.Json.Reading
import BotFleet.Proofs.Json.Writing

/-!
# With and without blanks

Both texts of a value spell this value, and they differ by blanks outside of strings only.

* `Json.induction`: a statement about a value follows from that about its items or members;
* `Json.packed`: a text without the blanks that stand outside of its strings;
* `Json.Packs`: a text that comes to another one without its blanks, whatever follows it;
* **`Json.packed_pretty`**: without its blanks the text with one item a line is the other one;
* `Json.Exact`: values whose numbers are whole and fit a word;
* **`Json.Exact.spelled_compact`**, **`Json.Exact.spelled_pretty`**: both texts spell the value.
-/

namespace BotFleet.Json

open Nat (ofDigitChars)

/-- A statement about a value follows from that about its items or members. -/
theorem induction {P : Json → Prop} (null : P .null) (bool : ∀ b, P (.bool b))
    (int : ∀ n, P (.int n)) (double : ∀ d, P (.double d)) (str : ∀ s, P (.str s))
    (arr : ∀ items, (∀ v ∈ items, P v) → P (.arr items))
    (obj : ∀ members, (∀ m ∈ members, P m.2) → P (.obj members)) : ∀ v, P v
  | .null => null
  | .bool b => bool b
  | .int n => int n
  | .double d => double d
  | .str s => str s
  | .arr items => arr items fun v _ => induction null bool int double str arr obj v
  | .obj members => obj members fun m _ => induction null bool int double str arr obj m.2
termination_by v => sizeOf v
decreasing_by
  · have := List.sizeOf_lt_of_mem ‹v ∈ items›
    simp only [Json.arr.sizeOf_spec]
    omega
  · have := List.sizeOf_lt_of_mem ‹m ∈ members›
    obtain ⟨name, w⟩ := m
    simp only [Prod.mk.sizeOf_spec, Json.obj.sizeOf_spec] at this ⊢
    omega

theorem prettyItems_eq (depth : Nat) (items : List Json) :
    prettyItems depth items =
      separated (itemText (newline depth) (prettyChars depth)) items := by
  induction items with
  | nil => simp [prettyItems, separated]
  | cons v items ih =>
    cases items with
    | nil => simp [prettyItems, separated, itemText]
    | cons w rest =>
      rw [prettyItems, ih, separated_cons_cons]
      simp [itemText]

theorem prettyMembers_eq (depth : Nat) (members : List (String × Json)) :
    prettyMembers depth members =
      separated (memberText (newline depth) [' '] (prettyChars depth)) members := by
  induction members with
  | nil => simp [prettyMembers, separated]
  | cons m members ih =>
    cases members with
    | nil => simp [prettyMembers, separated, memberText]
    | cons m' rest =>
      rw [prettyMembers, ih, separated_cons_cons]
      simp [memberText]

theorem blank_newline (depth : Nat) : Blank (newline depth) := by
  intro c hc
  rcases List.mem_cons.mp hc with rfl | hc
  · rfl
  · rw [List.eq_of_mem_replicate hc]
    rfl

theorem blank_space : Blank [' '] := by simp [Blank, isBlank]

/-! ## Blanks outside of strings -/

/-- Where a character stands: outside of the strings, inside one, or behind a backslash there. -/
inductive Region where
  | outside
  | inside
  | escaped

/-- What is left of a text that begins in some region when the blanks outside of its strings are
removed. -/
def packedFrom : Region → List Char → List Char
  | _, [] => []
  | .outside, c :: cs =>
    if isBlank c then packedFrom .outside cs
    else c :: packedFrom (if c = '"' then .inside else .outside) cs
  | .inside, c :: cs =>
    c :: packedFrom (if c = '"' then .outside else if c = '\\' then .escaped else .inside) cs
  | .escaped, c :: cs => c :: packedFrom .inside cs

/-- A text without the blanks that stand outside of its strings. -/
def packed (text : String) : String := String.ofList (packedFrom .outside text.toList)

/-- Outside of the strings a text comes to another one without its blanks, whatever follows it. -/
def Packs (text text' : List Char) : Prop :=
  ∀ rest, packedFrom .outside (text ++ rest) = text' ++ packedFrom .outside rest

/-- A character that is neither a blank nor a quotation mark. -/
def Plain (c : Char) : Prop := isBlank c = false ∧ c ≠ '"'

theorem Packs.append {a a' b b' : List Char} (h : Packs a a') (h' : Packs b b') :
    Packs (a ++ b) (a' ++ b') := by
  intro rest
  rw [List.append_assoc, h, h', List.append_assoc]

theorem Packs.nil : Packs [] [] := fun _ => rfl

theorem Packs.blank {gap : List Char} (h : Blank gap) : Packs gap [] := by
  intro rest
  induction gap with
  | nil => rfl
  | cons c gap ih =>
    obtain ⟨hc, hgap⟩ := List.forall_mem_cons.mp h
    rw [List.cons_append, packedFrom, if_pos hc]
    exact ih hgap

theorem Packs.cons {c : Char} (hc : Plain c) {a a' : List Char} (h : Packs a a') :
    Packs (c :: a) (c :: a') := by
  intro rest
  rw [List.cons_append, packedFrom, if_neg (by simp [hc.1]), if_neg hc.2, h]
  rfl

theorem Packs.plain {cs : List Char} (h : ∀ c ∈ cs, Plain c) : Packs cs cs := by
  induction cs with
  | nil => exact .nil
  | cons c cs ih =>
    obtain ⟨hc, hcs⟩ := List.forall_mem_cons.mp h
    exact .cons hc (ih hcs)

theorem Packs.separated {α : Type} {text text' : α → List Char} {row : List α}
    (h : ∀ a ∈ row, Packs (text a) (text' a)) : Packs (separated text row) (separated text' row) := by
  induction row with
  | nil => exact .nil
  | cons a row ih =>
    obtain ⟨ha, hrow⟩ := List.forall_mem_cons.mp h
    cases row with
    | nil => simpa [Json.separated] using ha
    | cons b rest =>
      rw [separated_cons_cons, separated_cons_cons]
      exact ha.append (.cons ⟨by decide, by decide⟩ (ih hrow))

/-! ## Strings and numbers -/

theorem hexDigit_inside : ∀ n < 0x10, hexDigit n ≠ '"' ∧ hexDigit n ≠ '\\' := by
  decide

/-- What stands for a character inside a string leads on inside this string. -/
theorem packedFrom_escaped (c : Char) (rest : List Char) :
    packedFrom .inside (escaped c ++ rest) = escaped c ++ packedFrom .inside rest := by
  unfold escaped
  split_ifs with hquote hslash hb ht hn hf hr hcontrol
  · rfl
  · rfl
  · rfl
  · rfl
  · rfl
  · rfl
  · rfl
  · obtain ⟨hhigh, hhigh'⟩ := hexDigit_inside (c.toNat / 16) (by omega)
    obtain ⟨hlow, hlow'⟩ := hexDigit_inside (c.toNat % 16) (by omega)
    simp [packedFrom, hhigh, hhigh', hlow, hlow']
  · simp [packedFrom, hquote, hslash]

theorem packs_quoted (s : String) : Packs (quoted s) (quoted s) := by
  intro rest
  have hinside (cs : List Char) (rest : List Char) :
      packedFrom .inside (cs.flatMap escaped ++ rest) =
        cs.flatMap escaped ++ packedFrom .inside rest := by
    induction cs with
    | nil => rfl
    | cons c cs ih =>
      rw [List.flatMap_cons, List.append_assoc, packedFrom_escaped, ih, List.append_assoc]
  rw [quoted, List.cons_append, List.append_assoc, packedFrom, if_neg (by decide), if_pos rfl,
    hinside]
  simp [packedFrom]

theorem plain_of_digit {c : Char} (h : c.isDigit = true) : Plain c :=
  ⟨not_isBlank_of_start (.inr h), by rintro rfl; cases h⟩

theorem packs_ofInt (n : Int) : Packs (ofInt n) (ofInt n) := by
  refine .plain fun c hc => ?_
  rcases List.mem_append.mp hc with hc | hc
  · split at hc
    · rw [List.mem_singleton.mp hc]
      exact ⟨by decide, by decide⟩
    · cases hc
  · exact plain_of_digit ((digits_digitsOf _).digit c hc)

theorem Exponent.WellFormed.plain {e : Exponent} (h : e.WellFormed) : ∀ c ∈ e.text, Plain c := by
  intro c hc
  rcases List.mem_cons.mp hc with rfl | hc
  · rcases h.mark with he | he <;> rw [he] <;> exact ⟨by decide, by decide⟩
  · rcases List.mem_append.mp hc with hc | hc
    · rcases h.sign with hs | hs | hs <;> rw [hs] at hc
      · cases hc
      · rw [List.mem_singleton.mp hc]
        exact ⟨by decide, by decide⟩
      · rw [List.mem_singleton.mp hc]
        exact ⟨by decide, by decide⟩
    · exact plain_of_digit (h.digits.digit c hc)

theorem Numeral.WellFormed.plain {n : Numeral} (h : n.WellFormed) : ∀ c ∈ n.text, Plain c := by
  intro c hc
  simp only [Numeral.text, List.mem_append] at hc
  rcases hc with hc | hc | hc | hc
  · split at hc
    · rw [List.mem_singleton.mp hc]
      exact ⟨by decide, by decide⟩
    · cases hc
  · exact plain_of_digit (h.whole.digit c hc)
  · unfold Numeral.fractionText at hc
    cases hf : n.fraction with
    | none => rw [hf] at hc; cases hc
    | some ds =>
      rw [hf] at hc
      rcases List.mem_cons.mp hc with rfl | hc
      · exact ⟨by decide, by decide⟩
      · exact plain_of_digit ((h.fraction ds hf).digit c hc)
  · unfold Numeral.exponentText at hc
    cases he : n.exponent with
    | none => rw [he] at hc; cases hc
    | some e =>
      rw [he] at hc
      exact (h.exponent e he).plain c hc

theorem packs_null : Packs ['n', 'u', 'l', 'l'] ['n', 'u', 'l', 'l'] :=
  .plain (by simp [Plain, isBlank])

theorem packs_ofDouble (d : Double) : Packs (ofDouble d) (ofDouble d) := by
  unfold ofDouble
  split
  · rename_i hd
    obtain ⟨n, hn, -, htext⟩ := exists_numeral hd
    rw [← htext]
    exact .plain hn.plain
  · exact packs_null

/-! ## Values -/

theorem Packs.bracketed {first last : Char} (hfirst : Plain first) (hlast : Plain last)
    {gap a a' : List Char} (hgap : Blank gap) (h : Packs a a') :
    Packs (first :: (a ++ (gap ++ [last]))) (first :: (a' ++ [last])) :=
  .cons hfirst (h.append ((Packs.blank hgap).append (.cons hlast .nil)))

theorem packs_prettyChars (v : Json) : ∀ depth, Packs (prettyChars depth v) (compactChars v) := by
  induction v using Json.induction with
  | null => intro depth; simpa only [prettyChars, compactChars] using packs_null
  | bool b =>
    intro depth
    cases b <;> simp only [prettyChars, compactChars] <;> exact .plain (by simp [Plain, isBlank])
  | int n => intro depth; simpa only [prettyChars, compactChars] using packs_ofInt n
  | double d => intro depth; simpa only [prettyChars, compactChars] using packs_ofDouble d
  | str s => intro depth; simpa only [prettyChars, compactChars] using packs_quoted s
  | arr items ih =>
    intro depth
    have hitems : Packs (prettyItems (depth + 1) items) (compactItems items) := by
      rw [prettyItems_eq, compactItems_eq]
      exact .separated fun v hv => (Packs.blank (blank_newline _)).append (ih v hv _)
    have hbracket {c : Char} (hc : c = '[' ∨ c = ']') : Plain c := by
      rcases hc with rfl | rfl <;> exact ⟨by decide, by decide⟩
    rw [prettyChars, compactChars]
    cases items with
    | nil =>
      exact .bracketed (hbracket (.inl rfl)) (hbracket (.inr rfl)) blank_nil (a := []) .nil
    | cons v items =>
      exact .bracketed (hbracket (.inl rfl)) (hbracket (.inr rfl)) (blank_newline depth) hitems
  | obj members ih =>
    intro depth
    have hmembers : Packs (prettyMembers (depth + 1) members) (compactMembers members) := by
      rw [prettyMembers_eq, compactMembers_eq]
      refine .separated fun m hm => (Packs.blank (blank_newline _)).append ?_
      exact (packs_quoted m.1).append
        (.cons ⟨by decide, by decide⟩ ((Packs.blank blank_space).append (ih m hm _)))
    have hbrace {c : Char} (hc : c = '\x7b' ∨ c = '\x7d') : Plain c := by
      rcases hc with rfl | rfl <;> exact ⟨by decide, by decide⟩
    rw [prettyChars, compactChars]
    cases members with
    | nil => exact .bracketed (hbrace (.inl rfl)) (hbrace (.inr rfl)) blank_nil (a := []) .nil
    | cons m members =>
      exact .bracketed (hbrace (.inl rfl)) (hbrace (.inr rfl)) (blank_newline depth) hmembers

/-- **Without its blanks the text with one item a line is the one without blanks.** -/
theorem packed_pretty (v : Json) : packed v.pretty = v.compact := by
  have hpacks := packs_prettyChars v 0 []
  rw [packedFrom, List.append_nil, List.append_nil] at hpacks
  rw [packed, pretty, String.toList_ofList, hpacks, compact]

/-! ## Values that are spelled -/

/-- A value whose numbers are whole and fit a word, with at most so many brackets inside one
another. -/
inductive Exact : Nat → Json → Prop where
  | null {depth : Nat} : Exact depth .null
  | bool {depth : Nat} (b : Bool) : Exact depth (.bool b)
  | nat {depth n : Nat} : n < UInt64.size → Exact depth (.nat n)
  | str {depth : Nat} (s : String) : Exact depth (.str s)
  | arr {depth : Nat} {items : List Json} : (∀ v ∈ items, Exact depth v) →
      Exact (depth + 1) (.arr items)
  | obj {depth : Nat} {members : List (String × Json)} : (∀ m ∈ members, Exact depth m.2) →
      Exact (depth + 1) (.obj members)

theorem absorb_digitsOf {n : Nat} (hn : n ≤ wordMax) :
    absorb 0 (digitsOf n) = (n, (digitsOf n).length) := by
  obtain ⟨taken, rest, hdigits, habsorb, -, hnext⟩ := exists_absorb (Nat.zero_le _) (digitsOf n)
  have hvalue := valueOf_digitsOf n
  cases rest with
  | nil =>
    rw [List.append_nil] at hdigits
    rw [habsorb, ← hdigits]
    exact Prod.ext hvalue rfl
  | cons c rest =>
    -- with one digit left the number would not fit
    have hlarge := hnext c rfl
    have hle := mul_pow_le_ofDigitChars (valueOf (taken ++ [c])) rest
    rw [← valueOf_append, List.append_assoc, List.singleton_append, ← hdigits, hvalue] at hle
    have htaken : valueOf (taken ++ [c]) = 10 * ofDigitChars 10 taken 0 + digitValue c :=
      valueOf_append taken [c]
    have hpow : 0 < 10 ^ rest.length := Nat.pow_pos (by decide)
    have hsmall := (Nat.le_mul_of_pos_right _ hpow).trans hle
    omega

theorem spells_nat (depth : Nat) {n : Nat} (hn : n < UInt64.size) :
    Spells depth (.value (.nat n)) (ofInt n) := by
  have hvalue : (Numeral.mk false (digitsOf n) none none).value? = some (.nat n) := by
    rw [Numeral.value?, numberOf, absorb_digitsOf (Nat.le_pred_of_lt hn)]
    simp [Json.nat]
  have hleading : (digitsOf n).head? = some '0' → (digitsOf n).length = 1 := by
    intro hzero
    obtain rfl | hpos := Nat.eq_zero_or_pos n
    · rfl
    · exact absurd hzero (head_digitsOf hpos)
  have hspells : Spells depth (.value (.nat n)) _ :=
    .number _ ⟨digits_digitsOf n, hleading, by simp, by simp⟩ hvalue
  have htext : (Numeral.mk false (digitsOf n) none none).text = ofInt n := by
    have hneg : ¬ (n : Int) < 0 := by omega
    simp [Numeral.text, Numeral.fractionText, Numeral.exponentText, ofInt, hneg]
  rwa [htext] at hspells

namespace Exact

variable {depth : Nat} {v : Json}

theorem spells_compact (h : Exact depth v) : Spells depth (.value v) (compactChars v) := by
  induction h with
  | null => rw [compactChars]; exact .null
  | bool b => exact written_bool _ b
  | nat hn => rw [Json.nat, compactChars]; exact spells_nat _ hn
  | str s => exact written_str _ s
  | arr _ ih =>
    rw [compactChars, compactItems_eq]
    exact spells_arr blank_nil blank_nil (List.forall₂_same.mpr ih)
  | obj _ ih =>
    rw [compactChars, compactMembers_eq]
    exact spells_obj blank_nil blank_nil blank_nil (List.forall₂_same.mpr fun m hm => ⟨rfl, ih m hm⟩)

theorem spells_pretty (h : Exact depth v) :
    ∀ indent, Spells depth (.value v) (prettyChars indent v) := by
  induction h with
  | null => intro indent; rw [prettyChars]; exact .null
  | bool b =>
    intro indent
    rw [prettyChars]
    cases b with
    | true => exact .yes
    | false => exact .no
  | nat hn => intro indent; rw [Json.nat, prettyChars]; exact spells_nat _ hn
  | str s => intro indent; rw [prettyChars]; exact .str (stringText_quoted s)
  | @arr depth items _ ih =>
    intro indent
    rw [prettyChars, prettyItems_eq]
    cases items with
    | nil => exact .emptyList blank_nil
    | cons v items =>
      exact spells_arr (blank_newline _) (blank_newline _)
        (List.forall₂_same.mpr fun v hv => ih v hv _)
  | @obj depth members _ ih =>
    intro indent
    rw [prettyChars, prettyMembers_eq]
    cases members with
    | nil => exact .emptyObject blank_nil
    | cons m members =>
      exact spells_obj (blank_newline _) blank_space (blank_newline _)
        (List.forall₂_same.mpr fun m hm => ⟨rfl, ih m hm _⟩)

/-- **The text without blanks spells the value.** -/
theorem spelled_compact (h : Exact depth v) (hdepth : depth ≤ maxDepth) : Spelled v.compact v :=
  Written.spelled h.spells_compact hdepth

/-- **The text with one item a line spells the value.** -/
theorem spelled_pretty (h : Exact depth v) (hdepth : depth ≤ maxDepth) : Spelled v.pretty v :=
  ⟨[], prettyChars 0 v, [], blank_nil, blank_nil, (h.spells_pretty 0).mono hdepth,
    by simp [pretty]⟩

end Exact

end BotFleet.Json
