import BotFleet.CommandLine.Reader

/-!
# How settings are spelled

* `Setting.Numeral`, `Setting.Number`, `Setting.Denotes`: the texts of a value;
* **`Setting.read_eq_some_iff`**: exactly these texts are read, as their value;
* `Setting.Spells`: the words for a setting and the text of its value;
* `Setting.Forms`, **`Setting.Spells.forms`**: the forms of these words.
-/

namespace BotFleet

namespace Setting

/-! ## The texts of a value -/

/-- The digits of a number. -/
def Numeral (cs : List Char) (n : Nat) : Prop :=
  cs ≠ [] ∧ (∀ c ∈ cs, c.isDigit = true) ∧ Nat.ofDigitChars 10 cs 0 = n

/-- The texts of a number: its digits, with or without a plus sign. -/
def Number (text : String) (n : Nat) : Prop :=
  ∃ cs, (text.toList = cs ∨ text.toList = '+' :: cs) ∧ Numeral cs n

/-- A text stands for a value of a setting. The number of a port may be a zero with a minus sign. -/
def Denotes : (s : Setting) → String → s.Value → Prop
  | host, text, v | gameVersion, text, v | gatewayPath, text, v => (v : String) = text
  | port, text, v =>
    Number text (v : UInt16).toNat ∨
      (v : UInt16).toNat = 0 ∧ ∃ cs, text.toList = '-' :: cs ∧ Numeral cs 0
  | bots, text, v | staggerMs, text, v | moveIntervalMs, text, v | moveDurationMs, text, v
  | chatIntervalMs, text, v | statusIntervalSecs, text, v => Number text (v : UInt64).toNat
  | holdSecs, text, v => ∃ w : UInt64, v = some w ∧ Number text w.toNat
  | noBehavior, text, v | json, text, v =>
    text = "true" ∧ (v : Bool) = true ∨ text = "false" ∧ (v : Bool) = false

theorem digits?_eq_some_iff {cs : List Char} {n : Nat} : digits? cs = some n ↔ Numeral cs n := by
  have hvalue : cs.foldl (fun n c => 10 * n + (c.toNat - '0'.toNat)) 0 = Nat.ofDigitChars 10 cs 0 :=
    rfl
  rw [digits?, hvalue, Numeral]
  split
  · rename_i h
    refine ⟨nofun, fun ⟨hne, hall, _⟩ => ?_⟩
    simp [hne, List.all_eq_true.mpr hall] at h
  · rename_i h
    obtain ⟨hne, hall⟩ : cs ≠ [] ∧ ∀ c ∈ cs, c.isDigit = true := by simpa using h
    exact ⟨fun hn => ⟨hne, hall, Option.some.inj hn⟩, fun hn => congrArg some hn.2.2⟩

theorem Numeral.head_isDigit {c : Char} {cs : List Char} {n : Nat} (h : Numeral (c :: cs) n) :
    c.isDigit = true :=
  h.2.1 c List.mem_cons_self

theorem number?_eq_some_iff {text : String} {n : Nat} : number? text = some n ↔ Number text n := by
  unfold number? Number
  split
  · rename_i cs htext
    rw [htext, digits?_eq_some_iff]
    constructor
    · exact fun h => ⟨cs, .inr rfl, h⟩
    · rintro ⟨cs', rfl | hcs, h⟩
      · exact absurd h.head_isDigit (by decide)
      · rwa [List.cons.inj hcs |>.2]
  · rename_i hplus
    rw [digits?_eq_some_iff]
    constructor
    · exact fun h => ⟨_, .inl rfl, h⟩
    · rintro ⟨cs, rfl | hcs, h⟩
      · exact h
      · exact absurd hcs (hplus cs)

theorem fits_eq_some_iff {α : Type} {size : Nat} {ofNat : Nat → α} {toNat : α → Nat}
    (hlt : ∀ w, toNat w < size) (hback : ∀ w, ofNat (toNat w) = w)
    (hforth : ∀ n < size, toNat (ofNat n) = n) {n : Nat} {w : α} :
    (if n < size then some (ofNat n) else none) = some w ↔ n = toNat w := by
  constructor
  · intro h
    split at h
    · cases h
      exact (hforth n ‹_›).symm
    · cases h
  · rintro rfl
    rw [if_pos (hlt w), hback]

theorem word?_eq_some_iff {text : String} {w : UInt64} :
    word? text = some w ↔ Number text w.toNat := by
  have hfits (n : Nat) := fits_eq_some_iff UInt64.toNat_lt_size (fun w => w.ofNat_toNat)
    (fun n hn => UInt64.toNat_ofNat_of_lt' hn) (n := n) (w := w)
  rw [← number?_eq_some_iff]
  refine Option.bind_eq_some_iff.trans ?_
  simp only [hfits, exists_eq_right]

theorem port?_eq_some_iff {text : String} {w : UInt16} : port? text = some w ↔
    Number text w.toNat ∨ w.toNat = 0 ∧ ∃ cs, text.toList = '-' :: cs ∧ Numeral cs 0 := by
  have hfits (n : Nat) := fits_eq_some_iff UInt16.toNat_lt_size (fun w => w.ofNat_toNat)
    (fun n hn => UInt16.toNat_ofNat_of_lt' hn) (n := n) (w := w)
  unfold port?
  split
  · rename_i cs htext
    constructor
    · intro h
      obtain ⟨n, hn, h⟩ := Option.bind_eq_some_iff.mp h
      split at h
      · subst n
        exact .inr ⟨((hfits 0).mp h).symm, cs, htext, digits?_eq_some_iff.mp hn⟩
      · cases h
    · rintro (⟨cs', hcs', h⟩ | ⟨hw, cs', hcs', h⟩)
      · -- a minus sign is no digit, and no plus sign
        rw [htext] at hcs'
        rcases hcs' with rfl | hcs'
        · exact absurd h.head_isDigit (by decide)
        · cases hcs'
      · obtain rfl := (List.cons.inj (htext.symm.trans hcs')).2
        exact Option.bind_eq_some_iff.mpr
          ⟨0, digits?_eq_some_iff.mpr h, (if_pos rfl).trans ((hfits 0).mpr hw.symm)⟩
  · rename_i hminus
    refine Option.bind_eq_some_iff.trans ?_
    simp only [hfits, exists_eq_right, number?_eq_some_iff]
    exact ⟨.inl, fun h => h.resolve_right fun ⟨_, cs, hcs, _⟩ => hminus cs hcs⟩

theorem switch_eq_some_iff {text : String} {on : Bool} :
    (if text = "true" then some true else if text = "false" then some false else none) = some on ↔
      text = "true" ∧ on = true ∨ text = "false" ∧ on = false := by
  by_cases htrue : text = "true"
  · subst htrue
    simp [eq_comm]
  · by_cases hfalse : text = "false" <;> simp [htrue, hfalse, eq_comm]

/-- **Exactly the texts of a value are read as this value.** -/
theorem read_eq_some_iff (s : Setting) (text : String) (v : s.Value) :
    s.read text = some v ↔ s.Denotes text v := by
  cases s with
  | host | gameVersion | gatewayPath => exact Option.some_inj.trans eq_comm
  | port => exact port?_eq_some_iff
  | bots | staggerMs | moveIntervalMs | moveDurationMs | chatIntervalMs | statusIntervalSecs =>
    exact word?_eq_some_iff
  | holdSecs =>
    refine Option.map_eq_some_iff.trans (exists_congr fun w => ?_)
    exact ⟨fun h => ⟨h.2.symm, word?_eq_some_iff.mp h.1⟩,
      fun h => ⟨word?_eq_some_iff.mpr h.2, h.1.symm⟩⟩
  | noBehavior | json =>
    exact switch_eq_some_iff

/-! ## The words for a setting -/

/-- A text may be a word of its own after a flag. -/
def Apart (text : String) : Prop := text.toList.head? ≠ some '-'

/-- The words for a setting and the text of its value. The text follows the name as a word of its
own or after an equals sign; after a letter the equals sign may be left out. A switch is written
without a text, and is on then. -/
inductive Spells (s : Setting) : String → List String → Prop where
  | apart (text : String) : s.isSwitch = false → Apart text → Spells s text ["--" ++ s.name, text]
  | joined (text : String) : s.isSwitch = false →
      Spells s text ["--" ++ s.name ++ "=" ++ text]
  | letterApart (c : Char) (text : String) : s.letter? = some c → Apart text →
      Spells s text ["-" ++ c.toString, text]
  | letterJoined (c : Char) (text : String) : s.letter? = some c →
      Spells s text ["-" ++ c.toString ++ text]
  | letterEquals (c : Char) (text : String) : s.letter? = some c →
      Spells s text ["-" ++ c.toString ++ "=" ++ text]
  | switch : s.isSwitch = true → Spells s "true" ["--" ++ s.name]

theorem ofName?_name (s : Setting) : Flag.ofName? s.name = some (.setting s) := by
  cases s <;> decide +kernel

theorem equals_not_mem_name (s : Setting) : '=' ∉ s.name.toList := by
  cases s <;> decide +kernel

theorem name_ne_nil (s : Setting) : s.name.toList ≠ [] := by
  cases s <;> decide +kernel

theorem ofLetter?_letter {s : Setting} {c : Char} (h : s.letter? = some c) :
    Flag.ofLetter? c = some (.setting s) ∧ s.isSwitch = false ∧ c ≠ '-' := by
  cases s <;> cases h <;> decide

end Setting

namespace Word

open Setting (Apart)

theorem classify_plain {text : String} (h : Apart text) : classify text = .plain text := by
  unfold classify
  split <;> first | rfl | simp_all [Apart]

theorem classify_name (s : Setting) : classify ("--" ++ s.name) = .flag (.setting s) none := by
  cases s <;> decide +kernel

/-- What follows the first equals sign is the text, whatever its characters are. -/
theorem classify_joined (s : Setting) (text : String) :
    classify ("--" ++ s.name ++ "=" ++ text) = .flag (.setting s) (some text) := by
  have hword : ("--" ++ s.name ++ "=" ++ text).toList =
      '-' :: '-' :: (s.name.toList ++ '=' :: text.toList) := by
    simp
  have hname (c : Char) (hc : c ∈ s.name.toList) : decide (c ≠ '=') = true :=
    decide_eq_true (ne_of_mem_of_not_mem hc s.equals_not_mem_name)
  have hlong : ofLong (s.name.toList ++ '=' :: text.toList) = .flag (.setting s) (some text) := by
    rw [ofLong, List.takeWhile_append_of_pos hname, List.dropWhile_append_of_pos hname]
    simp [s.ofName?_name]
  obtain ⟨c, cs, hcs⟩ := List.exists_cons_of_ne_nil s.name_ne_nil
  rw [classify, hword, ← hlong, hcs]
  rfl

section Letter

variable {s : Setting} {c : Char} (h : s.letter? = some c)
include h

theorem classify_letter (rest : String) :
    classify ("-" ++ c.toString ++ rest) = ofShort c rest.toList := by
  obtain ⟨-, -, hc⟩ := Setting.ofLetter?_letter h
  have hword : ("-" ++ c.toString ++ rest).toList = '-' :: c :: rest.toList := by simp
  unfold classify
  rw [hword]
  split <;> simp_all

theorem ofShort_nil : ofShort c [] = .flag (.setting s) none := by
  obtain ⟨hflag, hswitch, -⟩ := Setting.ofLetter?_letter h
  simp [ofShort, hflag, Flag.takesValue, hswitch]

theorem ofShort_equals (value : List Char) :
    ofShort c ('=' :: value) = .flag (.setting s) (some (String.ofList value)) := by
  obtain ⟨hflag, hswitch, -⟩ := Setting.ofLetter?_letter h
  simp [ofShort, hflag, Flag.takesValue, hswitch]

theorem ofShort_cons {d : Char} (hd : d ≠ '=') (ds : List Char) :
    ofShort c (d :: ds) = .flag (.setting s) (some (String.ofList (d :: ds))) := by
  obtain ⟨hflag, hswitch, -⟩ := Setting.ofLetter?_letter h
  simp [ofShort, hflag, Flag.takesValue, hswitch, hd]

end Letter

end Word

namespace Setting

variable {s : Setting}

theorem Number.exists_cons {text : String} {n : Nat} (h : Number text n) :
    ∃ c cs, text.toList = c :: cs ∧ c ≠ '=' := by
  obtain ⟨cs, rfl | hcs, hne, hdigits, -⟩ := h
  · obtain ⟨c, cs', hcs⟩ := List.exists_cons_of_ne_nil hne
    refine ⟨c, cs', hcs, ?_⟩
    rintro rfl
    exact absurd (hdigits '=' (hcs ▸ List.mem_cons_self)) (by decide)
  · exact ⟨'+', cs, hcs, by decide⟩

theorem exists_cons_of_letter {c : Char} (h : s.letter? = some c) {text : String} {v : s.Value}
    (hv : s.Denotes text v) : ∃ d ds, text.toList = d :: ds ∧ d ≠ '=' := by
  cases s with
  | port =>
    rcases hv with hnumber | ⟨-, cs, hcs, -⟩
    · exact hnumber.exists_cons
    · exact ⟨'-', cs, hcs, by decide⟩
  | bots => exact Number.exists_cons hv
  | _ => cases h

/-- The forms of the words for a setting: a flag and a plain text, a flag with its text, or a
switch. -/
inductive Forms (s : Setting) : String → List Word → Prop where
  | apart (text : String) : s.isSwitch = false →
      Forms s text [.flag (.setting s) none, .plain text]
  | joined (text : String) : s.isSwitch = false → Forms s text [.flag (.setting s) (some text)]
  | switch : s.isSwitch = true → Forms s "true" [.flag (.setting s) none]

/-- **There are no other forms**, if the text stands for a value. -/
theorem Spells.forms {text : String} {words : List String} (h : s.Spells text words) {v : s.Value}
    (hv : s.Denotes text v) : s.Forms text (words.map Word.classify) := by
  cases h with
  | apart _ hs ha =>
    rw [List.map_cons, List.map_cons, Word.classify_name, Word.classify_plain ha]
    exact .apart text hs
  | joined _ hs =>
    rw [List.map_cons, Word.classify_joined]
    exact .joined text hs
  | letterApart c _ hc ha =>
    have hletter := (Word.classify_letter hc "").trans (Word.ofShort_nil hc)
    rw [String.append_empty] at hletter
    rw [List.map_cons, List.map_cons, hletter, Word.classify_plain ha]
    exact .apart text (ofLetter?_letter hc).2.1
  | letterJoined c _ hc =>
    obtain ⟨d, ds, htext, hd⟩ := exists_cons_of_letter hc hv
    rw [List.map_cons, Word.classify_letter hc, htext, Word.ofShort_cons hc hd, ← htext,
      String.ofList_toList]
    exact .joined text (ofLetter?_letter hc).2.1
  | letterEquals c _ hc =>
    have hrest : ("=" ++ text).toList = '=' :: text.toList := by simp
    rw [List.map_cons, String.append_assoc, Word.classify_letter hc, hrest, Word.ofShort_equals hc,
      String.ofList_toList]
    exact .joined text (ofLetter?_letter hc).2.1
  | switch hs =>
    rw [List.map_cons, Word.classify_name]
    exact .switch hs

end Setting

end BotFleet
