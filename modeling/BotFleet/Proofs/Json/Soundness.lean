import BotFleet.Proofs.Json.Reading
import Mathlib.Data.List.TakeWhile

/-!
# What is read is spelled

The reader accepts no text outside the grammar, and so it accepts exactly the texts of the grammar.

* `Json.exists_of_readChars`: strings;
* `Json.exists_of_readNumber`: numbers;
* `Json.Sound`, **`Json.sound`**: values, and what is left of a list or an object;
* **`Json.ofText?_eq_ok_iff`**: whole texts.
-/

namespace BotFleet.Json

theorem exists_of_bind {α β : Type} {x : Except Flaw α} {f : α → Except Flaw β} {b : β}
    (h : (x >>= f) = .ok b) : ∃ a, x = .ok a ∧ f a = .ok b := by
  cases x with
  | error e => cases h
  | ok a => exact ⟨a, rfl, h⟩

theorem exists_of_map {α β : Type} {x : Except Flaw α} {f : α → β} {b : β}
    (h : x.map f = .ok b) : ∃ a, x = .ok a ∧ f a = b := by
  cases x with
  | error e => cases h
  | ok a => exact ⟨a, rfl, Except.ok.inj h⟩

theorem exists_blank {cs rest : List Char} (h : skipBlanks cs = rest) :
    ∃ before, Blank before ∧ cs = before ++ rest :=
  ⟨cs.takeWhile isBlank, fun _ hc => List.mem_takeWhile_imp hc,
    h ▸ List.takeWhile_append_dropWhile.symm⟩

theorem Blank.append {before after : List Char} (h : Blank before) (h' : Blank after) :
    Blank (before ++ after) :=
  fun c hc => (List.mem_append.mp hc).elim (h c) (h' c)

/-! ## Strings -/

/-- A text goes on with the body of a string that has been read in part. -/
def Continues (seen cs chars rest : List Char) : Prop :=
  ∃ text body, StringBody text body ∧ cs = text ++ '"' :: rest ∧ chars = seen.reverse ++ body

theorem Continues.cons {seen cs chars rest : List Char} {c : Char}
    (h : Continues (c :: seen) cs chars rest) (escape : List Char)
    (hc : ∀ {text body}, StringBody text body → StringBody (escape ++ text) (c :: body)) :
    Continues seen (escape ++ cs) chars rest := by
  obtain ⟨text, body, hbody, rfl, rfl⟩ := h
  exact ⟨escape ++ text, c :: body, hc hbody, (List.append_assoc ..).symm, by simp⟩

theorem exists_of_readChars {seen cs chars rest : List Char}
    (h : readChars seen cs = .ok (chars, rest)) : Continues seen cs chars rest := by
  fun_induction readChars seen cs
  case case2 => cases h; exact ⟨[], [], .nil, rfl, by simp⟩
  case case6 hu hlow hhigh _ _ _ _ _ _ hu' hlow' ih =>
    exact (ih h).cons ['\\', 'u', _, _, _, _, '\\', 'u', _, _, _, _] fun hbody =>
      .pair hu hhigh hu' hlow' hbody
  case case12 hu hlow hhigh ih =>
    exact (ih h).cons ['\\', 'u', _, _, _, _] fun hbody =>
      .unit hu (Bool.eq_false_iff.mpr hhigh) (Bool.eq_false_iff.mpr hlow) hbody
  case case15 he ih => exact (ih h).cons ['\\', _] fun hbody => .letter he hbody
  case case18 c rest' hquote _ _ hend hslash hc ih =>
    have hslash : c ≠ '\\' := by
      rintro rfl
      cases rest' with
      | nil => exact hend rfl rfl
      | cons d rest' => exact hslash d rest' rfl rfl
    exact (ih h).cons [c] fun hbody => .plain hquote hslash (Nat.not_lt.mp hc) hbody
  all_goals cases h

theorem exists_of_readString {cs rest : List Char} {s : String}
    (h : readString cs = .ok (s, rest)) :
    ∃ text, StringText ('"' :: text) s ∧ cs = text ++ rest := by
  obtain ⟨⟨chars, rest'⟩, hread, h⟩ := exists_of_bind h
  cases h
  obtain ⟨text, body, hbody, rfl, rfl⟩ := exists_of_readChars hread
  exact ⟨text ++ ['"'], ⟨text, by simpa using hbody, rfl⟩, by simp⟩

/-! ## Numbers -/

theorem exists_of_readDigits {cs ds rest : List Char} (h : readDigits cs = .ok (ds, rest)) :
    Digits ds ∧ cs = ds ++ rest := by
  unfold readDigits at h
  split at h
  · cases h
  · cases h
  · rename_i hds _
    cases h
    exact ⟨⟨hds, fun c hc => List.mem_takeWhile_imp hc⟩, List.takeWhile_append_dropWhile.symm⟩

theorem exists_of_readWhole {cs ds rest : List Char} (h : readWhole cs = .ok (ds, rest)) :
    Digits ds ∧ (ds.head? = some '0' → ds.length = 1) ∧ cs = ds ++ rest := by
  obtain ⟨⟨ds', rest'⟩, hread, h⟩ := exists_of_bind h
  simp only at h
  split at h
  · cases h
  · rename_i hlead
    cases h
    obtain ⟨hds, rfl⟩ := exists_of_readDigits hread
    refine ⟨hds, fun hzero => ?_, rfl⟩
    have := List.length_pos_iff.mpr hds.nonempty
    have := mt (And.intro hzero) hlead
    omega

theorem exists_of_readFraction {cs rest : List Char} {fraction : Option (List Char)}
    (h : readFraction cs = .ok (fraction, rest)) :
    (∀ ds ∈ fraction, Digits ds) ∧ cs = (fraction.map ('.' :: ·)).getD [] ++ rest := by
  unfold readFraction at h
  split at h
  · obtain ⟨⟨ds, rest'⟩, hread, h⟩ := exists_of_bind h
    cases h
    obtain ⟨hds, rfl⟩ := exists_of_readDigits hread
    exact ⟨by simpa using hds, rfl⟩
  · cases h
    exact ⟨nofun, rfl⟩

theorem exists_of_readExponent {cs rest : List Char} {value : Option Int}
    (h : readExponent cs = .ok (value, rest)) : ∃ e? : Option Exponent,
      (∀ e ∈ e?, e.WellFormed) ∧ value = e?.map Exponent.value ∧
        cs = (e?.map Exponent.text).getD [] ++ rest := by
  unfold readExponent at h
  split at h
  · rename_i mark cs
    split at h
    · rename_i hmark
      split at h
      rename_i unit cs' hsplit
      obtain ⟨sign, hsign, hunit, rfl⟩ : ∃ sign, (sign = [] ∨ sign = ['+'] ∨ sign = ['-']) ∧
          unit = (if sign = ['-'] then -1 else 1) ∧ cs = sign ++ cs' := by
        split at hsplit <;> obtain ⟨rfl, rfl⟩ := Prod.mk.inj hsplit
        · exact ⟨['+'], .inr (.inl rfl), rfl, rfl⟩
        · exact ⟨['-'], .inr (.inr rfl), rfl, rfl⟩
        · exact ⟨[], .inl rfl, rfl, rfl⟩
      obtain ⟨⟨ds, rest'⟩, hread, h⟩ := exists_of_bind h
      cases h
      obtain ⟨hds, rfl⟩ := exists_of_readDigits hread
      refine ⟨some ⟨mark, sign, ds⟩, ?_, ?_, ?_⟩
      · simpa using ⟨hmark, hsign, hds⟩
      · rw [hunit]
        rfl
      · simp [Exponent.text]
    · cases h
      exact ⟨none, by simp, rfl, rfl⟩
  · cases h
    exact ⟨none, by simp, rfl, rfl⟩

theorem exists_of_readNumber {cs rest : List Char} {v : Json} (h : readNumber cs = .ok (v, rest)) :
    ∃ n : Numeral, n.WellFormed ∧ n.value? = some v ∧ cs = n.text ++ rest := by
  unfold readNumber at h
  split at h
  rename_i negative cs' hsplit
  obtain rfl : cs = (if negative then ['-'] else []) ++ cs' := by
    split at hsplit <;> obtain ⟨rfl, rfl⟩ := Prod.mk.inj hsplit <;> rfl
  obtain ⟨⟨whole, cs₁⟩, hwhole, h⟩ := exists_of_bind h
  obtain ⟨⟨fraction, cs₂⟩, hfraction, h⟩ := exists_of_bind h
  obtain ⟨⟨exponent, cs₃⟩, hexponent, h⟩ := exists_of_bind h
  simp only at h
  split at h
  · rename_i v' hv
    cases h
    obtain ⟨hw, hlead, rfl⟩ := exists_of_readWhole hwhole
    obtain ⟨hf, rfl⟩ := exists_of_readFraction hfraction
    obtain ⟨e?, he, rfl, rfl⟩ := exists_of_readExponent hexponent
    refine ⟨⟨negative, whole, fraction, e?⟩, ⟨hw, hlead, hf, he⟩, hv, ?_⟩
    simp [Numeral.text, Numeral.fractionText, Numeral.exponentText]
  · cases h

/-! ## Between the items -/

theorem exists_of_nextItem_closed {first : Bool} {cs rest : List Char}
    (h : nextItem first cs = .ok (.closed rest)) :
    ∃ before, Blank before ∧ cs = before ++ ']' :: rest := by
  unfold nextItem at h
  split at h
  · cases h
  · rename_i hskip
    cases h
    exact exists_blank hskip
  · repeat' split at h
    all_goals cases h

theorem exists_of_nextItem_first {cs rest : List Char}
    (h : nextItem true cs = .ok (.item () rest)) :
    ∃ before, Blank before ∧ cs = before ++ rest := by
  unfold nextItem at h
  split at h
  · cases h
  · cases h
  · rename_i hskip
    rw [if_pos rfl] at h
    cases h
    exact exists_blank hskip

theorem exists_of_nextItem_next {cs rest : List Char}
    (h : nextItem false cs = .ok (.item () rest)) :
    ∃ before after, Blank before ∧ Blank after ∧ cs = before ++ ',' :: (after ++ rest) := by
  unfold nextItem at h
  split at h
  · cases h
  · cases h
  · rename_i c rest' _ hskip
    rw [if_neg Bool.false_ne_true] at h
    split at h
    · rename_i hc
      subst hc
      obtain ⟨before, hb, rfl⟩ := exists_blank hskip
      split at h
      · cases h
      · cases h
      · rename_i rest'' _ _
        cases h
        obtain ⟨after, ha, hrest⟩ := exists_blank (rfl : skipBlanks rest' = _)
        exact ⟨before, after, hb, ha, by rw [← hrest]⟩
    · cases h

theorem exists_of_readName_closed {cs rest : List Char} (h : readName cs = .ok (.closed rest)) :
    False := by
  unfold readName at h
  split at h
  · cases h
  · obtain ⟨⟨name, rest'⟩, -, h⟩ := exists_of_bind h
    cases h
  · cases h

theorem exists_of_readName {cs left : List Char} {name : String}
    (h : readName cs = .ok (.item name left)) :
    ∃ text, StringText text name ∧ cs = text ++ left := by
  unfold readName at h
  split at h
  · cases h
  · obtain ⟨⟨name', rest'⟩, hread, h⟩ := exists_of_bind h
    cases h
    obtain ⟨text, htext, rfl⟩ := exists_of_readString hread
    exact ⟨_, htext, rfl⟩
  · cases h

theorem exists_of_nextMember_closed {first : Bool} {cs rest : List Char}
    (h : nextMember first cs = .ok (.closed rest)) :
    ∃ before, Blank before ∧ cs = before ++ '\x7d' :: rest := by
  unfold nextMember at h
  split at h
  · cases h
  · rename_i hskip
    cases h
    exact exists_blank hskip
  · repeat' split at h
    · exact (exists_of_readName_closed h).elim
    · exact (exists_of_readName_closed h).elim
    · cases h

theorem exists_of_nextMember_first {cs left : List Char} {name : String}
    (h : nextMember true cs = .ok (.item name left)) :
    ∃ before text, Blank before ∧ StringText text name ∧ cs = before ++ (text ++ left) := by
  unfold nextMember at h
  split at h
  · cases h
  · cases h
  · rename_i hskip
    rw [if_pos rfl] at h
    obtain ⟨text, htext, hcs⟩ := exists_of_readName h
    obtain ⟨before, hb, rfl⟩ := exists_blank hskip
    exact ⟨before, text, hb, htext, by rw [hcs]⟩

theorem exists_of_nextMember_next {cs left : List Char} {name : String}
    (h : nextMember false cs = .ok (.item name left)) :
    ∃ before after text, Blank before ∧ Blank after ∧ StringText text name ∧
      cs = before ++ ',' :: (after ++ (text ++ left)) := by
  unfold nextMember at h
  split at h
  · cases h
  · cases h
  · rename_i c rest' _ hskip
    rw [if_neg Bool.false_ne_true] at h
    split at h
    · rename_i hc
      subst hc
      obtain ⟨before, hb, rfl⟩ := exists_blank hskip
      obtain ⟨text, htext, hcs⟩ := exists_of_readName h
      obtain ⟨after, ha, hrest⟩ := exists_blank hcs
      exact ⟨before, after, text, hb, ha, htext, by rw [hrest]⟩
    · cases h

theorem exists_of_expectColon {left rest : List Char} (h : expectColon left = .ok rest) :
    ∃ before, Blank before ∧ left = before ++ ':' :: rest := by
  unfold expectColon at h
  split at h
  · cases h
  · rename_i hskip
    cases h
    exact exists_blank hskip
  · cases h

theorem exists_of_expectWord {word cs rest : List Char} (h : expectWord word cs = .ok rest) :
    cs = word ++ rest := by
  induction word generalizing cs with
  | nil => cases h; rfl
  | cons w word ih =>
    cases cs with
    | nil => cases h
    | cons c cs =>
      rw [expectWord] at h
      split at h
      · rename_i hw
        rw [hw, ih h]
        rfl
      · cases h

/-! ## Values -/

/-- What is left of a list, after its opening bracket or after one of its items. -/
def ItemsLeft (depth : Nat) (first : Bool) (vs : List Json) (text : List Char) : Prop :=
  if first then Spells (depth + 1) (.value (.arr vs)) ('[' :: text)
  else Spells depth (.items vs) text

/-- What is left of an object, after its opening bracket or after one of its members. -/
def MembersLeft (depth : Nat) (first : Bool) (ms : List (String × Json)) (text : List Char) :
    Prop :=
  if first then Spells (depth + 1) (.value (.obj ms)) ('\x7b' :: text)
  else Spells depth (.members ms) text

/-- What is read with so much fuel is spelled. -/
structure Sound (fuel : Nat) : Prop where
  value {depth : Nat} {cs rest : List Char} {v : Json} :
    readValueIn depth fuel cs = .ok (v, rest) →
      ∃ before text, Blank before ∧ Spells depth (.value v) text ∧ cs = before ++ (text ++ rest)
  items {depth : Nat} {first : Bool} {seen vs : List Json} {cs rest : List Char} :
    readItems depth first seen fuel cs = .ok (vs, rest) →
      ∃ text later, ItemsLeft depth first later text ∧ vs = seen.reverse ++ later ∧
        cs = text ++ rest
  members {depth : Nat} {first : Bool} {seen ms : List (String × Json)} {cs rest : List Char} :
    readMembers depth first seen fuel cs = .ok (ms, rest) →
      ∃ text later, MembersLeft depth first later text ∧ ms = seen.reverse ++ later ∧
        cs = text ++ rest

namespace Sound

variable {fuel : Nat} (ih : Sound fuel)
include ih

theorem value_succ {depth : Nat} {cs rest : List Char} {v : Json}
    (h : readValueIn depth (fuel + 1) cs = .ok (v, rest)) :
    ∃ before text, Blank before ∧ Spells depth (.value v) text ∧ cs = before ++ (text ++ rest) := by
  rw [readValueIn] at h
  obtain ⟨before, hb, hcs⟩ := exists_blank (rfl : skipBlanks cs = _)
  rw [hcs]
  have hspelled {text : List Char} (hv : Spells depth (.value v) text)
      (htext : skipBlanks cs = text ++ rest) : ∃ before' text, Blank before' ∧
        Spells depth (.value v) text ∧ before ++ skipBlanks cs = before' ++ (text ++ rest) :=
    ⟨before, text, hb, hv, by rw [htext]⟩
  split at h
  · cases h
  · rename_i hskip
    obtain ⟨rest', hread, hv⟩ := exists_of_map h
    cases hv
    exact hspelled .null (by rw [hskip, exists_of_expectWord hread]; rfl)
  · rename_i hskip
    obtain ⟨rest', hread, hv⟩ := exists_of_map h
    cases hv
    exact hspelled .yes (by rw [hskip, exists_of_expectWord hread]; rfl)
  · rename_i hskip
    obtain ⟨rest', hread, hv⟩ := exists_of_map h
    cases hv
    exact hspelled .no (by rw [hskip, exists_of_expectWord hread]; rfl)
  · rename_i hskip
    obtain ⟨⟨s, rest'⟩, hread, hv⟩ := exists_of_map h
    cases hv
    obtain ⟨text, htext, hcs'⟩ := exists_of_readString hread
    exact hspelled (.str htext) (by rw [hskip, hcs']; rfl)
  · rename_i hskip
    split at h
    · cases h
    · obtain ⟨⟨vs, rest'⟩, hread, hv⟩ := exists_of_map h
      cases hv
      obtain ⟨text, later, hleft, rfl, hcs'⟩ := ih.items hread
      exact hspelled hleft (by rw [hskip, hcs']; rfl)
  · rename_i hskip
    split at h
    · cases h
    · obtain ⟨⟨ms, rest'⟩, hread, hv⟩ := exists_of_map h
      cases hv
      obtain ⟨text, later, hleft, rfl, hcs'⟩ := ih.members hread
      exact hspelled hleft (by rw [hskip, hcs']; rfl)
  · rename_i hskip
    split at h
    · obtain ⟨n, hn, hv, hcs'⟩ := exists_of_readNumber h
      exact hspelled (.number n hn hv) (by rw [hskip, hcs'])
    · cases h

theorem items_succ {depth : Nat} {first : Bool} {seen vs : List Json} {cs rest : List Char}
    (h : readItems depth first seen (fuel + 1) cs = .ok (vs, rest)) :
    ∃ text later, ItemsLeft depth first later text ∧ vs = seen.reverse ++ later ∧
      cs = text ++ rest := by
  rw [readItems] at h
  obtain ⟨place, hnext, h⟩ := exists_of_bind h
  cases place with
  | closed rest' =>
    cases h
    obtain ⟨before, hb, rfl⟩ := exists_of_nextItem_closed hnext
    refine ⟨before ++ [']'], [], ?_, by simp, by simp⟩
    cases first with
    | true => exact .emptyList hb
    | false => exact .itemsEnd hb
  | item _ cs' =>
    obtain ⟨⟨v, cs''⟩, hread, h⟩ := exists_of_bind h
    obtain ⟨tail, later, hleft, rfl, rfl⟩ := ih.items h
    obtain ⟨before', text, hb', hv, rfl⟩ := ih.value hread
    cases first with
    | true =>
      obtain ⟨before, hb, rfl⟩ := exists_of_nextItem_first hnext
      exact ⟨(before ++ before') ++ (text ++ tail), v :: later, .list (hb.append hb') hv hleft,
        by simp, by simp⟩
    | false =>
      obtain ⟨before, after, hb, ha, rfl⟩ := exists_of_nextItem_next hnext
      exact ⟨before ++ ',' :: ((after ++ before') ++ (text ++ tail)), v :: later,
        .itemsNext hb (ha.append hb') hv hleft, by simp, by simp⟩

theorem members_succ {depth : Nat} {first : Bool} {seen ms : List (String × Json)}
    {cs rest : List Char} (h : readMembers depth first seen (fuel + 1) cs = .ok (ms, rest)) :
    ∃ text later, MembersLeft depth first later text ∧ ms = seen.reverse ++ later ∧
      cs = text ++ rest := by
  rw [readMembers] at h
  obtain ⟨place, hnext, h⟩ := exists_of_bind h
  cases place with
  | closed rest' =>
    cases h
    obtain ⟨before, hb, rfl⟩ := exists_of_nextMember_closed hnext
    refine ⟨before ++ ['\x7d'], [], ?_, by simp, by simp⟩
    cases first with
    | true => exact .emptyObject hb
    | false => exact .membersEnd hb
  | item name left =>
    obtain ⟨cs', hcolon, h⟩ := exists_of_bind h
    obtain ⟨⟨v, cs''⟩, hread, h⟩ := exists_of_bind h
    obtain ⟨tail, later, hleft, rfl, rfl⟩ := ih.members h
    obtain ⟨blanks', text, hblanks', hv, rfl⟩ := ih.value hread
    obtain ⟨blanks, hblanks, rfl⟩ := exists_of_expectColon hcolon
    have hlabel {quoted : List Char} (hq : StringText quoted name) :
        NameText (quoted ++ (blanks ++ ':' :: blanks')) name :=
      ⟨quoted, blanks, blanks', hq, hblanks, hblanks', rfl⟩
    cases first with
    | true =>
      obtain ⟨before, quoted, hb, hq, rfl⟩ := exists_of_nextMember_first hnext
      exact ⟨_, (name, v) :: later, .object hb (hlabel hq) hv hleft, by simp, by simp⟩
    | false =>
      obtain ⟨before, after, quoted, hb, ha, hq, rfl⟩ := exists_of_nextMember_next hnext
      exact ⟨_, (name, v) :: later, .membersNext hb ha (hlabel hq) hv hleft, by simp, by simp⟩

end Sound

/-- **What is read is spelled**, with any fuel. -/
theorem sound (fuel : Nat) : Sound fuel := by
  induction fuel with
  | zero =>
    constructor
    case value => intro _ _ _ _ h; rw [readValueIn] at h; cases h
    case items => intro _ _ _ _ _ _ h; rw [readItems] at h; cases h
    case members => intro _ _ _ _ _ _ h; rw [readMembers] at h; cases h
  | succ fuel ih => exact ⟨ih.value_succ, ih.items_succ, ih.members_succ⟩

/-! ## Whole texts -/

/-- **The reader accepts exactly the texts of the grammar**, and finds the value of each. -/
theorem ofText?_eq_ok_iff {text : String} {v : Json} : ofText? text = .ok v ↔ Spelled text v := by
  refine ⟨fun h => ?_, ofText?_of_spelled⟩
  obtain ⟨⟨v', rest⟩, hread, h⟩ := exists_of_bind h
  obtain ⟨⟨⟩, hend, h⟩ := exists_of_bind h
  cases h
  obtain ⟨before, chars, hb, hv, htext⟩ := (sound _).value hread
  refine ⟨before, chars, rest, hb, ?_, hv, htext⟩
  unfold expectEnd at hend
  split at hend
  · rename_i hempty
    obtain ⟨after, ha, hrest⟩ := exists_blank (List.isEmpty_iff.mp hempty)
    rw [hrest, List.append_nil]
    exact ha
  · cases hend

end BotFleet.Json
