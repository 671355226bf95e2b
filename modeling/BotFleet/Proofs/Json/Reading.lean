import BotFleet.Proofs.Json.Grammar

/-!
# What is spelled is read

The reader reads every text of the grammar, and finds the value that the text spells.

* `Json.StringBody.read`: strings;
* `Json.Numeral.read`: numbers, as long as no digit, point or exponent follows;
* `Json.Ends`: what may follow a value inside another one;
* **`Json.Spells.reads`**: values, and what is left of a list or an object;
* **`Json.ofText?_of_spelled`**: whole texts;
* `Json.Spelled.unique`: a text spells one value at most.
-/

namespace BotFleet.Json

theorem skipBlanks_append {before : List Char} (h : Blank before) (cs : List Char) :
    skipBlanks (before ++ cs) = skipBlanks cs :=
  List.dropWhile_append_of_pos h

theorem skipBlanks_cons {c : Char} (h : isBlank c = false) (cs : List Char) :
    skipBlanks (c :: cs) = c :: cs :=
  List.dropWhile_cons_of_neg (Bool.eq_false_iff.mp h)

theorem skipBlanks_eq_nil {before : List Char} (h : Blank before) : skipBlanks before = [] := by
  have hnil := skipBlanks_append h []
  rwa [List.append_nil] at hnil

/-! ## Strings -/

theorem not_isLow_of_isHigh {n : Nat} (h : isHighSurrogate n = true) :
    isLowSurrogate n = false := by
  simp only [isHighSurrogate, isLowSurrogate, Bool.and_eq_true, decide_eq_true_eq,
    Bool.and_eq_false_iff, decide_eq_false_iff_not] at *
  omega

/-- **A string is read up to its closing quotation mark.** -/
theorem StringBody.read {text chars : List Char} (h : StringBody text chars)
    (seen rest : List Char) :
    readChars seen (text ++ '"' :: rest) = .ok (seen.reverse ++ chars, rest) := by
  induction h generalizing seen with
  | nil => simp [readChars]
  | plain hquote hslash hc _ ih =>
    have hc := Nat.not_lt.mpr hc
    rw [List.cons_append, readChars]
    · rw [if_neg hc, ih, List.reverse_cons, List.append_assoc]
      rfl
    all_goals simp_all
  | @letter letter c text chars he _ ih =>
    have hu : letter ≠ 'u' := by rintro rfl; simp [simpleEscape?] at he
    rw [List.cons_append, List.cons_append, readChars]
    · simp [he, ih]
    all_goals simp_all
  | unit hu hhigh hlow _ ih => simp [readChars, hu, hhigh, hlow, ih]
  | pair hu hhigh hu' hlow' _ ih =>
    simp [readChars, hu, hhigh, not_isLow_of_isHigh hhigh, hu', hlow', ih]

theorem StringText.read {text : List Char} {s : String} (h : StringText text s) (rest : List Char) :
    ∃ cs, text ++ rest = '"' :: cs ∧ readString cs = .ok (s, rest) := by
  obtain ⟨body, hbody, rfl⟩ := h
  refine ⟨body ++ '"' :: rest, by simp, ?_⟩
  rw [readString, hbody.read]
  simp [bind, Except.bind, String.ofList_toList]

/-! ## Numbers -/

/-- No digit stands at the start of a text. -/
def NoDigit (cs : List Char) : Prop := ∀ c ∈ cs.head?, c.isDigit = false

theorem Digits.exists_cons {ds : List Char} (h : Digits ds) :
    ∃ c cs, ds = c :: cs ∧ c.isDigit = true := by
  obtain ⟨c, cs, rfl⟩ := List.exists_cons_of_ne_nil h.nonempty
  exact ⟨c, cs, rfl, h.digit c List.mem_cons_self⟩

theorem takeWhile_noDigit {rest : List Char} (h : NoDigit rest) :
    rest.takeWhile Char.isDigit = [] ∧ rest.dropWhile Char.isDigit = rest := by
  cases rest with
  | nil => exact ⟨rfl, rfl⟩
  | cons c rest =>
    have hc := Bool.eq_false_iff.mp (h c rfl)
    exact ⟨List.takeWhile_cons_of_neg hc, List.dropWhile_cons_of_neg hc⟩

theorem Digits.read {ds rest : List Char} (h : Digits ds) (hrest : NoDigit rest) :
    readDigits (ds ++ rest) = .ok (ds, rest) := by
  obtain ⟨htake, hdrop⟩ := takeWhile_noDigit hrest
  have hds : (ds ++ rest).takeWhile Char.isDigit = ds := by
    rw [List.takeWhile_append_of_pos h.digit, htake, List.append_nil]
  have hleft : (ds ++ rest).dropWhile Char.isDigit = rest := by
    rw [List.dropWhile_append_of_pos h.digit, hdrop]
  obtain ⟨c, cs, rfl, -⟩ := h.exists_cons
  unfold readDigits
  rw [hds, hleft]

/-- What may follow a number without being taken for a part of it. -/
structure NoNumber (cs : List Char) : Prop where
  digit : NoDigit cs
  point : cs.head? ≠ some '.'
  mark : cs.head? ≠ some 'e' ∧ cs.head? ≠ some 'E'

namespace Numeral

variable {n : Numeral} (h : n.WellFormed) {rest : List Char} (hrest : NoNumber rest)
include h hrest

theorem read_exponent :
    readExponent (n.exponentText ++ rest) = .ok (n.exponent.map Exponent.value, rest) := by
  cases he : n.exponent with
  | none =>
    simp only [exponentText, he, Option.map_none, Option.getD_none, List.nil_append]
    cases rest with
    | nil => rfl
    | cons c rest =>
      have hc : ¬(c = 'e' ∨ c = 'E') := by
        rintro (rfl | rfl)
        · exact hrest.mark.1 rfl
        · exact hrest.mark.2 rfl
      unfold readExponent
      exact if_neg hc
  | some e =>
    obtain ⟨hmark, hsign, hdigits⟩ := h.exponent e he
    obtain ⟨mark, sign, digits⟩ := e
    simp only at hmark hsign hdigits
    simp only [exponentText, he, Option.map_some, Option.getD_some, Exponent.text, Exponent.value,
      List.cons_append, List.append_assoc, readExponent, if_pos hmark]
    have hread := hdigits.read hrest.digit
    obtain ⟨d, ds, rfl, hd⟩ := hdigits.exists_cons
    rw [List.cons_append] at hread
    rcases hsign with rfl | rfl | rfl
    · have hplus : d ≠ '+' := by rintro rfl; cases hd
      have hminus : d ≠ '-' := by rintro rfl; cases hd
      simp [hplus, hminus, hread, bind, Except.bind]
    · simp [hread, bind, Except.bind]
    · simp [hread, bind, Except.bind]

theorem noDigit_exponentText : NoDigit (n.exponentText ++ rest) := by
  cases he : n.exponent with
  | none => simpa [exponentText, he] using hrest.digit
  | some e =>
    intro c hc
    simp only [exponentText, he, Option.map_some, Option.getD_some, Exponent.text, List.cons_append,
      List.head?_cons, Option.mem_some_iff] at hc
    rcases (h.exponent e he).mark with hmark | hmark <;> rw [hmark] at hc <;> subst hc <;> rfl

theorem read_fraction :
    readFraction (n.fractionText ++ (n.exponentText ++ rest)) =
      .ok (n.fraction, n.exponentText ++ rest) := by
  have hread := fun ds hds => (h.fraction ds hds).read (noDigit_exponentText h hrest)
  cases hf : n.fraction with
  | some ds =>
    simp only [fractionText, hf, Option.map_some, Option.getD_some, List.cons_append, readFraction,
      hread ds hf]
    rfl
  | none =>
    simp only [fractionText, hf, Option.map_none, Option.getD_none, List.nil_append]
    have hpoint : (n.exponentText ++ rest).head? ≠ some '.' := by
      cases he : n.exponent with
      | none => simpa [exponentText, he] using hrest.point
      | some e =>
        simp only [exponentText, he, Option.map_some, Option.getD_some, Exponent.text,
          List.cons_append, List.head?_cons]
        rcases (h.exponent e he).mark with hmark | hmark <;> rw [hmark] <;> simp
    unfold readFraction
    split
    · rename_i heq
      rw [heq] at hpoint
      exact absurd rfl hpoint
    · rfl

theorem noDigit_fractionText : NoDigit (n.fractionText ++ (n.exponentText ++ rest)) := by
  cases hf : n.fraction with
  | none => simpa [fractionText, hf] using noDigit_exponentText h hrest
  | some ds =>
    intro c hc
    simp only [fractionText, hf, Option.map_some, Option.getD_some, List.cons_append,
      List.head?_cons, Option.mem_some_iff] at hc
    subst hc
    rfl

theorem read_whole :
    readWhole (n.whole ++ (n.fractionText ++ (n.exponentText ++ rest))) =
      .ok (n.whole, n.fractionText ++ (n.exponentText ++ rest)) := by
  have hone : ¬(n.whole.head? = some '0' ∧ 1 < n.whole.length) := fun ⟨hhead, hlong⟩ => by
    rw [h.leading hhead] at hlong
    exact Nat.lt_irrefl 1 hlong
  simp only [readWhole, h.whole.read (noDigit_fractionText h hrest), bind, Except.bind, if_neg hone]

/-- **A number is read up to what cannot be a part of it.** -/
theorem read {v : Json} (hv : n.value? = some v) : readNumber (n.text ++ rest) = .ok (v, rest) := by
  have htext : n.text ++ rest = (if n.negative then ['-'] else []) ++
      (n.whole ++ (n.fractionText ++ (n.exponentText ++ rest))) := by
    simp only [text, List.append_assoc]
  rw [htext]
  rw [value?] at hv
  cases hneg : n.negative with
  | true =>
    rw [hneg] at hv
    rw [if_pos rfl, List.singleton_append, readNumber]
    simp only [read_whole h hrest, read_fraction h hrest, read_exponent h hrest, bind, Except.bind,
      hv]
  | false =>
    rw [hneg] at hv
    simp only [Bool.false_eq_true, if_false, List.nil_append]
    obtain ⟨c, cs, hc, hdigit⟩ := h.whole.exists_cons
    refine (readNumber.eq_2 _ fun cs' heq => ?_).trans ?_
    · have hminus : c ≠ '-' := by rintro rfl; cases hdigit
      rw [hc] at heq
      exact hminus (List.cons.inj heq).1
    · simp only [read_whole h hrest, read_fraction h hrest, read_exponent h hrest, bind,
        Except.bind, hv]

end Numeral

/-! ## Between the items -/

theorem isBlank_of_mem {before : List Char} (h : Blank before) {c : Char} (hc : c ∈ before.head?) :
    isBlank c = true :=
  h c (List.mem_of_head? hc)

/-- What may follow a value inside another one. -/
def Ends (cs : List Char) : Prop :=
  ∀ c ∈ cs.head?, isBlank c = true ∨ c = ',' ∨ c = ']' ∨ c = '\x7d'

theorem ends_append {before : List Char} (h : Blank before) {cs : List Char} (hcs : Ends cs) :
    Ends (before ++ cs) := by
  cases before with
  | nil => exact hcs
  | cons c before => exact fun c' hc' => .inl (isBlank_of_mem h hc')

theorem ends_cons {c : Char} (h : c = ',' ∨ c = ']' ∨ c = '\x7d') (cs : List Char) :
    Ends (c :: cs) := by
  rintro c' hc'
  cases hc'
  exact .inr h

theorem Ends.noNumber {cs : List Char} (h : Ends cs) : NoNumber cs := by
  have hhead (c : Char) (hc : c ∈ cs.head?) : c.isDigit = false ∧ c ≠ '.' ∧ c ≠ 'e' ∧ c ≠ 'E' := by
    rcases h c hc with hb | rfl | rfl | rfl
    · simp only [isBlank, Bool.or_eq_true, decide_eq_true_eq] at hb
      rcases hb with ((rfl | rfl) | rfl) | rfl <;> decide
    all_goals decide
  exact ⟨fun c hc => (hhead c hc).1, fun hc => (hhead _ hc).2.1 rfl,
    fun hc => (hhead _ hc).2.2.1 rfl, fun hc => (hhead _ hc).2.2.2 rfl⟩

theorem Spells.ends {depth : Nat} {part : Part} {text : List Char} (h : Spells depth part text)
    (hpart : ∀ v, part ≠ .value v) (rest : List Char) : Ends (text ++ rest) := by
  cases h with
  | itemsEnd hb | membersEnd hb =>
    rw [List.append_assoc]
    exact ends_append hb (ends_cons (by decide) _)
  | itemsNext hb | membersNext hb =>
    rw [List.append_assoc]
    exact ends_append hb (ends_cons (by decide) _)
  | _ => exact absurd rfl (hpart _)

theorem Numeral.WellFormed.start {n : Numeral} (h : n.WellFormed) :
    ∃ c cs, n.text = c :: cs ∧ (c = '-' ∨ c.isDigit = true) := by
  unfold Numeral.text
  cases n.negative with
  | true => exact ⟨'-', _, rfl, .inl rfl⟩
  | false =>
    obtain ⟨c, cs, hc, hdigit⟩ := h.whole.exists_cons
    rw [hc]
    exact ⟨c, _, rfl, .inr hdigit⟩

theorem not_isBlank_of_start {c : Char} (h : c = '-' ∨ c.isDigit = true) : isBlank c = false := by
  cases hb : isBlank c with
  | false => rfl
  | true =>
    simp only [isBlank, Bool.or_eq_true, decide_eq_true_eq] at hb
    rcases hb with ((rfl | rfl) | rfl) | rfl <;> simp at h

theorem Spells.start {depth : Nat} {v : Json} {text : List Char}
    (h : Spells depth (.value v) text) : ∃ c cs, text = c :: cs ∧ isBlank c = false ∧ c ≠ ']' := by
  cases h with
  | number n hn _ =>
    obtain ⟨c, cs, htext, hc⟩ := hn.start
    refine ⟨c, cs, htext, not_isBlank_of_start hc, ?_⟩
    rintro rfl
    simp at hc
  | str hs =>
    obtain ⟨body, -, rfl⟩ := hs
    exact ⟨_, _, rfl, rfl, by decide⟩
  | _ => exact ⟨_, _, rfl, rfl, by decide⟩

theorem nextItem_end {before : List Char} (h : Blank before) (first : Bool) (rest : List Char) :
    nextItem first (before ++ ']' :: rest) = .ok (.closed rest) := by
  rw [nextItem, skipBlanks_append h, skipBlanks_cons rfl]
  rfl

theorem nextItem_first {before : List Char} (h : Blank before) {depth : Nat} {v : Json}
    {text : List Char} (hv : Spells depth (.value v) text) (rest : List Char) :
    nextItem true (before ++ (text ++ rest)) = .ok (.item () (text ++ rest)) := by
  obtain ⟨c, cs, rfl, hblank, hclose⟩ := hv.start
  rw [nextItem, skipBlanks_append h, List.cons_append, skipBlanks_cons hblank]
  simp

theorem nextItem_next {before after : List Char} (h : Blank before) (h' : Blank after) {depth : Nat}
    {v : Json} {text : List Char} (hv : Spells depth (.value v) text) (rest : List Char) :
    nextItem false (before ++ ',' :: (after ++ (text ++ rest))) =
      .ok (.item () (text ++ rest)) := by
  obtain ⟨c, cs, rfl, hblank, hclose⟩ := hv.start
  have hnext : skipBlanks (after ++ c :: (cs ++ rest)) = c :: (cs ++ rest) := by
    rw [skipBlanks_append h', skipBlanks_cons hblank]
  rw [nextItem, skipBlanks_append h, skipBlanks_cons rfl, List.cons_append]
  simp [hnext, hclose]

theorem nextMember_end {before : List Char} (h : Blank before) (first : Bool) (rest : List Char) :
    nextMember first (before ++ '\x7d' :: rest) = .ok (.closed rest) := by
  rw [nextMember, skipBlanks_append h, skipBlanks_cons rfl]
  rfl

theorem NameText.read {label : List Char} {name : String} (h : NameText label name)
    (rest : List Char) : ∃ cs left after, label ++ rest = '"' :: cs ∧
      readName ('"' :: cs) = .ok (.item name left) ∧ Blank after ∧
      expectColon left = .ok (after ++ rest) := by
  obtain ⟨quoted, before, after, hquoted, hbefore, hafter, rfl⟩ := h
  obtain ⟨cs, hcs, hread⟩ := hquoted.read (before ++ ':' :: (after ++ rest))
  refine ⟨cs, before ++ ':' :: (after ++ rest), after, ?_, ?_, hafter, ?_⟩
  · rw [← hcs]
    simp
  · simp only [readName, hread, bind, Except.bind]
  · rw [expectColon, skipBlanks_append hbefore, skipBlanks_cons rfl]
    rfl

theorem nextMember_first {before : List Char} (h : Blank before) {label : List Char} {name : String}
    (hl : NameText label name) (rest : List Char) : ∃ left after, Blank after ∧
      nextMember true (before ++ (label ++ rest)) = .ok (.item name left) ∧
      expectColon left = .ok (after ++ rest) := by
  obtain ⟨cs, left, after, hcs, hname, hafter, hcolon⟩ := hl.read rest
  refine ⟨left, after, hafter, ?_, hcolon⟩
  rw [nextMember, skipBlanks_append h, hcs, skipBlanks_cons rfl]
  simp [hname]

theorem nextMember_next {before after : List Char} (h : Blank before) (h' : Blank after)
    {label : List Char} {name : String} (hl : NameText label name) (rest : List Char) :
    ∃ left after', Blank after' ∧
      nextMember false (before ++ ',' :: (after ++ (label ++ rest))) = .ok (.item name left) ∧
      expectColon left = .ok (after' ++ rest) := by
  obtain ⟨cs, left, after', hcs, hname, hafter, hcolon⟩ := hl.read rest
  refine ⟨left, after', hafter, ?_, hcolon⟩
  have hnext : skipBlanks (after ++ (label ++ rest)) = '"' :: cs := by
    rw [skipBlanks_append h', hcs, skipBlanks_cons rfl]
  rw [nextMember, skipBlanks_append h, skipBlanks_cons rfl]
  simp [hnext, hname]

/-! ## Values -/

theorem readValueIn_append {before : List Char} (h : Blank before) (depth fuel : Nat)
    (cs : List Char) : readValueIn depth fuel (before ++ cs) = readValueIn depth fuel cs := by
  cases fuel with
  | zero => rw [readValueIn, readValueIn]
  | succ fuel => rw [readValueIn, readValueIn, skipBlanks_append h]

/-- A part of a value is read from a text that something follows, with as much fuel as two steps a
character. -/
def Part.Reads (depth : Nat) (text : List Char) : Part → Prop
  | .value v => ∀ rest fuel, Ends rest → 2 * text.length ≤ fuel →
      readValueIn depth fuel (text ++ rest) = .ok (v, rest)
  | .items vs => ∀ seen rest fuel, 2 * text.length ≤ fuel →
      readItems depth false seen fuel (text ++ rest) = .ok (seen.reverse ++ vs, rest)
  | .members ms => ∀ seen rest fuel, 2 * text.length ≤ fuel →
      readMembers depth false seen fuel (text ++ rest) = .ok (seen.reverse ++ ms, rest)

theorem reads_number {depth : Nat} {v : Json} {n : Numeral} (hn : n.WellFormed)
    (hv : n.value? = some v) : (Part.value v).Reads depth n.text := by
  intro rest fuel hrest hfuel
  have hread := n.read hn hrest.noNumber hv
  obtain ⟨c, cs, htext, hc⟩ := hn.start
  rw [htext, List.cons_append] at hread
  rw [htext, List.length_cons] at hfuel
  obtain ⟨fuel, rfl⟩ : ∃ f, fuel = f + 1 := ⟨fuel - 1, by omega⟩
  rw [htext, List.cons_append, readValueIn, skipBlanks_cons (not_isBlank_of_start hc)]
  -- none of the characters that other values start with is a digit
  split
  case h_8 h => cases h; rw [if_pos hc, hread]
  all_goals
    rename_i h
    cases h
    first | done | simp at hc

/-- **What is spelled is read**, whatever follows. -/
theorem Spells.reads {depth : Nat} {part : Part} {text : List Char} (h : Spells depth part text) :
    part.Reads depth text := by
  induction h with
  | null | yes | no =>
    intro rest fuel _ hfuel
    obtain ⟨fuel, rfl⟩ : ∃ f, fuel = f + 1 := ⟨fuel - 1, by simp at hfuel; omega⟩
    rfl
  | number n hn hv => exact reads_number hn hv
  | str hs =>
    intro rest fuel _ hfuel
    obtain ⟨cs, hcs, hread⟩ := hs.read rest
    obtain ⟨body, -, rfl⟩ := hs
    obtain ⟨fuel, rfl⟩ : ∃ f, fuel = f + 1 := ⟨fuel - 1, by simp at hfuel; omega⟩
    rw [hcs, readValueIn, skipBlanks_cons rfl]
    simp only [hread, Except.map]
  | emptyList hb =>
    intro rest fuel _ hfuel
    obtain ⟨fuel, rfl⟩ : ∃ f, fuel = f + 1 + 1 := ⟨fuel - 2, by simp at hfuel; omega⟩
    rw [List.cons_append, List.append_assoc, readValueIn, skipBlanks_cons rfl]
    simp only [readItems, List.singleton_append, nextItem_end hb, bind, Except.bind, Except.map,
      List.reverse_nil]
  | @list depth before text tail v vs hb hv hvs ih ih' =>
    intro rest fuel _ hfuel
    simp only [List.length_cons, List.length_append] at hfuel
    obtain ⟨fuel, rfl⟩ : ∃ f, fuel = f + 1 + 1 := ⟨fuel - 2, by omega⟩
    rw [List.cons_append, List.append_assoc, List.append_assoc, readValueIn, skipBlanks_cons rfl]
    have hfirst := ih _ fuel (hvs.ends (by simp) rest) (by omega)
    have hrest := ih' [v] rest fuel (by omega)
    simp only [readItems, nextItem_first hb hv, hfirst, hrest, bind, Except.bind, Except.map]
    rfl
  | itemsEnd hb =>
    intro seen rest fuel hfuel
    obtain ⟨fuel, rfl⟩ : ∃ f, fuel = f + 1 := ⟨fuel - 1, by simp at hfuel; omega⟩
    rw [List.append_assoc, readItems]
    simp only [List.singleton_append, nextItem_end hb, bind, Except.bind, List.append_nil]
  | @itemsNext depth before after text tail v vs hb ha hv hvs ih ih' =>
    intro seen rest fuel hfuel
    simp only [List.length_cons, List.length_append] at hfuel
    obtain ⟨fuel, rfl⟩ : ∃ f, fuel = f + 1 := ⟨fuel - 1, by omega⟩
    have hfirst := ih _ fuel (hvs.ends (by simp) rest) (by omega)
    have hrest := ih' (v :: seen) rest fuel (by omega)
    rw [List.append_assoc, List.cons_append, List.append_assoc, List.append_assoc, readItems]
    simp only [nextItem_next hb ha hv, hfirst, hrest, bind, Except.bind, List.reverse_cons,
      List.append_assoc, List.singleton_append]
  | emptyObject hb =>
    intro rest fuel _ hfuel
    obtain ⟨fuel, rfl⟩ : ∃ f, fuel = f + 1 + 1 := ⟨fuel - 2, by simp at hfuel; omega⟩
    rw [List.cons_append, List.append_assoc, readValueIn, skipBlanks_cons rfl]
    simp only [readMembers, List.singleton_append, nextMember_end hb, bind, Except.bind, Except.map,
      List.reverse_nil]
  | @object depth before label text tail name v ms hb hl hv hms ih ih' =>
    intro rest fuel _ hfuel
    simp only [List.length_cons, List.length_append] at hfuel
    obtain ⟨fuel, rfl⟩ : ∃ f, fuel = f + 1 + 1 := ⟨fuel - 2, by omega⟩
    rw [List.cons_append, List.append_assoc, List.append_assoc, List.append_assoc, readValueIn,
      skipBlanks_cons rfl]
    obtain ⟨left, after, ha, hname, hcolon⟩ := nextMember_first hb hl (text ++ (tail ++ rest))
    have hfirst := ih _ fuel (hms.ends (by simp) rest) (by omega)
    have hrest := ih' [(name, v)] rest fuel (by omega)
    simp only [readMembers, hname, hcolon, readValueIn_append ha, hfirst, hrest, bind, Except.bind,
      Except.map]
    rfl
  | membersEnd hb =>
    intro seen rest fuel hfuel
    obtain ⟨fuel, rfl⟩ : ∃ f, fuel = f + 1 := ⟨fuel - 1, by simp at hfuel; omega⟩
    rw [List.append_assoc, readMembers]
    simp only [List.singleton_append, nextMember_end hb, bind, Except.bind, List.append_nil]
  | @membersNext depth before after label text tail name v ms hb ha hl hv hms ih ih' =>
    intro seen rest fuel hfuel
    simp only [List.length_cons, List.length_append] at hfuel
    obtain ⟨fuel, rfl⟩ : ∃ f, fuel = f + 1 := ⟨fuel - 1, by omega⟩
    obtain ⟨left, after', hafter, hname, hcolon⟩ :=
      nextMember_next hb ha hl (text ++ (tail ++ rest))
    have hfirst := ih _ fuel (hms.ends (by simp) rest) (by omega)
    have hrest := ih' ((name, v) :: seen) rest fuel (by omega)
    rw [List.append_assoc, List.cons_append, List.append_assoc, List.append_assoc,
      List.append_assoc, readMembers]
    simp only [hname, hcolon, readValueIn_append hafter, hfirst, hrest, bind, Except.bind,
      List.reverse_cons, List.append_assoc, List.singleton_append]

/-! ## Whole texts -/

theorem ends_of_blank {after : List Char} (h : Blank after) : Ends after := by
  have hnil : Ends [] := by rintro c hc; cases hc
  have hends := ends_append h hnil
  rwa [List.append_nil] at hends

theorem expectEnd_of_blank {after : List Char} (h : Blank after) : expectEnd after = .ok () := by
  rw [expectEnd, skipBlanks_eq_nil h]
  rfl

/-- **A text that is JSON is read as the value that it spells.** -/
theorem ofText?_of_spelled {text : String} {v : Json} (h : Spelled text v) :
    ofText? text = .ok v := by
  obtain ⟨before, chars, after, hbefore, hafter, hv, htext⟩ := h
  have hread := hv.reads after (stepsFor text.toList) (ends_of_blank hafter) (by
    rw [htext, stepsFor, List.length_append, List.length_append]
    omega)
  rw [ofText?, readValue, htext, readValueIn_append hbefore, ← htext, hread]
  simp only [bind, Except.bind, expectEnd_of_blank hafter]

/-- A text spells one value at most. -/
theorem Spelled.unique {text : String} {v w : Json} (h : Spelled text v) (h' : Spelled text w) :
    v = w :=
  Except.ok.inj ((ofText?_of_spelled h).symm.trans (ofText?_of_spelled h'))

end BotFleet.Json
