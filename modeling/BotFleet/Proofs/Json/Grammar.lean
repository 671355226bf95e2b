import BotFleet.Json.Reader

/-!
# The grammar of JSON

Which texts spell which values, with nothing said about how they are read.

* `Json.Blank`: a stretch of blanks;
* `Json.StringBody`: what stands between the quotation marks of a string;
* `Json.Numeral`: the parts of a number, its text and its value;
* `Json.Part`, `Json.Spells`: values, and what is left of a list or an object after an item;
* **`Json.Spelled`**: a whole text, with blanks around its value;
* `Json.Spells.mono`: what may be nested less deep may be nested deeper.
-/

namespace BotFleet.Json

/-- A stretch of blanks. -/
def Blank (cs : List Char) : Prop := ∀ c ∈ cs, isBlank c = true

/-! ## Strings -/

/-- The characters between two quotation marks: each stands for itself, is escaped by a letter or by
its code unit, or is escaped by the two surrogates of a pair. -/
inductive StringBody : List Char → List Char → Prop where
  | nil : StringBody [] []
  | plain {c : Char} {text chars : List Char} : c ≠ '"' → c ≠ '\\' → 0x20 ≤ c.toNat →
      StringBody text chars → StringBody (c :: text) (c :: chars)
  | letter {letter c : Char} {text chars : List Char} : simpleEscape? letter = some c →
      StringBody text chars → StringBody ('\\' :: letter :: text) (c :: chars)
  | unit {a b c d : Char} {unit : Nat} {text chars : List Char} : hexUnit? a b c d = some unit →
      isHighSurrogate unit = false → isLowSurrogate unit = false → StringBody text chars →
      StringBody ('\\' :: 'u' :: a :: b :: c :: d :: text) (Char.ofNat unit :: chars)
  | pair {a b c d e f g h : Char} {high low : Nat} {text chars : List Char} :
      hexUnit? a b c d = some high → isHighSurrogate high = true →
      hexUnit? e f g h = some low → isLowSurrogate low = true → StringBody text chars →
      StringBody ('\\' :: 'u' :: a :: b :: c :: d :: '\\' :: 'u' :: e :: f :: g :: h :: text)
        (joinSurrogates high low :: chars)

/-- A string between its quotation marks. -/
def StringText (text : List Char) (s : String) : Prop :=
  ∃ body, StringBody body s.toList ∧ text = '"' :: (body ++ ['"'])

/-! ## Numbers -/

/-- One digit or more. -/
structure Digits (ds : List Char) : Prop where
  nonempty : ds ≠ []
  digit : ∀ c ∈ ds, c.isDigit = true

/-- An exponent: its mark, its sign if it has one, and its digits. -/
structure Exponent where
  mark : Char
  sign : List Char
  digits : List Char

namespace Exponent

/-- The text of an exponent. -/
def text (e : Exponent) : List Char := e.mark :: (e.sign ++ e.digits)

/-- The value of an exponent. -/
def value (e : Exponent) : Int := (if e.sign = ['-'] then -1 else 1) * valueOf e.digits

/-- The mark is `e` in either case, and the sign is a plus or a minus. -/
structure WellFormed (e : Exponent) : Prop where
  mark : e.mark = 'e' ∨ e.mark = 'E'
  sign : e.sign = [] ∨ e.sign = ['+'] ∨ e.sign = ['-']
  digits : Digits e.digits

end Exponent

/-- The parts of a number. -/
structure Numeral where
  negative : Bool := false
  whole : List Char
  fraction : Option (List Char) := none
  exponent : Option Exponent := none

namespace Numeral

/-- The text of a fraction with its point. -/
def fractionText (n : Numeral) : List Char := (n.fraction.map ('.' :: ·)).getD []

/-- The text of an exponent with its mark. -/
def exponentText (n : Numeral) : List Char := (n.exponent.map Exponent.text).getD []

/-- The text of a number. -/
def text (n : Numeral) : List Char :=
  (if n.negative then ['-'] else []) ++ (n.whole ++ (n.fractionText ++ n.exponentText))

/-- Each part has digits, and the whole part begins with a zero only if it is one. -/
structure WellFormed (n : Numeral) : Prop where
  whole : Digits n.whole
  leading : n.whole.head? = some '0' → n.whole.length = 1
  fraction : ∀ ds ∈ n.fraction, Digits ds
  exponent : ∀ e ∈ n.exponent, e.WellFormed

/-- The value of a number, unless it is too large. -/
def value? (n : Numeral) : Option Json :=
  numberOf n.negative n.whole n.fraction (n.exponent.map Exponent.value)

theorem number_of_value? (n : Numeral) {v : Json} (h : n.value? = some v) :
    (∃ k, v = .int k) ∨ ∃ d, v = .double d := by
  unfold value? numberOf at h
  simp only at h
  split at h
  · exact .inl ⟨_, (Option.some.inj h).symm⟩
  · obtain ⟨d, -, hd⟩ := Option.map_eq_some_iff.mp h
    exact .inr ⟨_, hd.symm⟩

end Numeral

/-! ## Values -/

/-- What a stretch of a text can be: a value, or what is left of a list or of an object after one of
its items, up to the closing bracket. -/
inductive Part where
  | value (v : Json)
  | items (vs : List Json)
  | members (ms : List (String × Json))

/-- The name of a member, and the colon after it. -/
def NameText (text : List Char) (name : String) : Prop :=
  ∃ quoted before after, StringText quoted name ∧ Blank before ∧ Blank after ∧
    text = quoted ++ (before ++ ':' :: after)

/-- **The grammar.** A text spells a part of a value with at most so many brackets inside one
another. -/
inductive Spells : Nat → Part → List Char → Prop where
  | null {depth : Nat} : Spells depth (.value .null) ['n', 'u', 'l', 'l']
  | yes {depth : Nat} : Spells depth (.value (.bool true)) ['t', 'r', 'u', 'e']
  | no {depth : Nat} : Spells depth (.value (.bool false)) ['f', 'a', 'l', 's', 'e']
  | number {depth : Nat} {v : Json} (n : Numeral) : n.WellFormed → n.value? = some v →
      Spells depth (.value v) n.text
  | str {depth : Nat} {text : List Char} {s : String} : StringText text s →
      Spells depth (.value (.str s)) text
  | emptyList {depth : Nat} {before : List Char} : Blank before →
      Spells (depth + 1) (.value (.arr [])) ('[' :: (before ++ [']']))
  | list {depth : Nat} {before text tail : List Char} {v : Json} {vs : List Json} : Blank before →
      Spells depth (.value v) text → Spells depth (.items vs) tail →
      Spells (depth + 1) (.value (.arr (v :: vs))) ('[' :: (before ++ (text ++ tail)))
  | itemsEnd {depth : Nat} {before : List Char} : Blank before →
      Spells depth (.items []) (before ++ [']'])
  | itemsNext {depth : Nat} {before after text tail : List Char} {v : Json} {vs : List Json} :
      Blank before → Blank after → Spells depth (.value v) text → Spells depth (.items vs) tail →
      Spells depth (.items (v :: vs)) (before ++ ',' :: (after ++ (text ++ tail)))
  | emptyObject {depth : Nat} {before : List Char} : Blank before →
      Spells (depth + 1) (.value (.obj [])) ('\x7b' :: (before ++ ['\x7d']))
  | object {depth : Nat} {before label text tail : List Char} {name : String} {v : Json}
      {ms : List (String × Json)} : Blank before → NameText label name →
      Spells depth (.value v) text → Spells depth (.members ms) tail →
      Spells (depth + 1) (.value (.obj ((name, v) :: ms)))
        ('\x7b' :: (before ++ (label ++ (text ++ tail))))
  | membersEnd {depth : Nat} {before : List Char} : Blank before →
      Spells depth (.members []) (before ++ ['\x7d'])
  | membersNext {depth : Nat} {before after label text tail : List Char} {name : String} {v : Json}
      {ms : List (String × Json)} : Blank before → Blank after → NameText label name →
      Spells depth (.value v) text → Spells depth (.members ms) tail →
      Spells depth (.members ((name, v) :: ms))
        (before ++ ',' :: (after ++ (label ++ (text ++ tail))))

/-- **A text that is JSON**, and its value. -/
def Spelled (text : String) (v : Json) : Prop :=
  ∃ before chars after, Blank before ∧ Blank after ∧ Spells maxDepth (.value v) chars ∧
    text.toList = before ++ (chars ++ after)

theorem Spells.mono {depth : Nat} {part : Part} {text : List Char} (h : Spells depth part text)
    {depth' : Nat} (hle : depth ≤ depth') : Spells depth' part text := by
  induction h generalizing depth' with
  | null => exact .null
  | yes => exact .yes
  | no => exact .no
  | number n hn hv => exact .number n hn hv
  | str hs => exact .str hs
  | itemsEnd hb => exact .itemsEnd hb
  | itemsNext hb ha _ _ ih ih' => exact .itemsNext hb ha (ih hle) (ih' hle)
  | membersEnd hb => exact .membersEnd hb
  | membersNext hb ha hl _ _ ih ih' => exact .membersNext hb ha hl (ih hle) (ih' hle)
  | emptyList hb => cases depth' with
    | zero => cases hle
    | succ depth' => exact .emptyList hb
  | emptyObject hb => cases depth' with
    | zero => cases hle
    | succ depth' => exact .emptyObject hb
  | list hb _ _ ih ih' => cases depth' with
    | zero => cases hle
    | succ depth' =>
      have hle := Nat.le_of_succ_le_succ hle
      exact .list hb (ih hle) (ih' hle)
  | object hb hl _ _ ih ih' => cases depth' with
    | zero => cases hle
    | succ depth' =>
      have hle := Nat.le_of_succ_le_succ hle
      exact .object hb hl (ih hle) (ih' hle)

end BotFleet.Json
