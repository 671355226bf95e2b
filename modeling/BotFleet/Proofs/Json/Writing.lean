import BotFleet.Json.Printer
import BotFleet.Proofs.Json.Grammar
import Mathlib.Data.List.Forall2

/-!
# What is written is spelled

Strings are escaped so that they are read back as they are, and a list or an object of values that
spell something spells a list or an object, whatever blanks stand between them.

* `Json.stringText_quoted`: strings;
* `Json.separated`: items or members with commas between them;
* **`Json.spells_arr`**, **`Json.spells_obj`**: lists and objects;
* `Json.Written`: a value whose text spells a value, perhaps another one;
* `Json.written_obj`: objects without blanks.
-/

namespace BotFleet.Json

/-! ## Strings -/

theorem hexUnit?_control : ∀ n < 0x20,
    hexUnit? '0' '0' (hexDigit (n / 16)) (hexDigit (n % 16)) = some n ∧
      isHighSurrogate n = false ∧ isLowSurrogate n = false := by
  decide

theorem StringBody.escaped (c : Char) {text chars : List Char} (h : StringBody text chars) :
    StringBody (escaped c ++ text) (c :: chars) := by
  unfold Json.escaped
  split_ifs with hquote hslash hb ht hn hf hr hcontrol
  · subst hquote; exact .letter (by decide) h
  · subst hslash; exact .letter (by decide) h
  · subst hb; exact .letter (by decide) h
  · subst ht; exact .letter (by decide) h
  · subst hn; exact .letter (by decide) h
  · subst hf; exact .letter (by decide) h
  · subst hr; exact .letter (by decide) h
  · obtain ⟨hunit, hhigh, hlow⟩ := hexUnit?_control c.toNat hcontrol
    have hbody := StringBody.unit hunit hhigh hlow h
    rwa [Char.ofNat_toNat] at hbody
  · exact .plain hquote hslash (Nat.not_lt.mp hcontrol) h

/-- **A string between quotation marks is read back.** -/
theorem stringText_quoted (s : String) : StringText (quoted s) s := by
  refine ⟨_, ?_, rfl⟩
  induction s.toList with
  | nil => exact .nil
  | cons c cs ih => exact ih.escaped c

/-! ## Lists and objects -/

/-- Texts with commas between them. -/
def separated {α : Type} (text : α → List Char) : List α → List Char
  | [] => []
  | a :: rest => text a ++ rest.flatMap (',' :: text ·)

theorem separated_cons_cons {α : Type} (text : α → List Char) (a b : α) (rest : List α) :
    separated text (a :: b :: rest) = text a ++ ',' :: separated text (b :: rest) := rfl

/-- An item behind a gap. -/
def itemText (gap : List Char) (print : Json → List Char) (v : Json) : List Char := gap ++ print v

/-- A member behind a gap, with another gap behind its colon. -/
def memberText (gap behind : List Char) (print : Json → List Char) (m : String × Json) :
    List Char :=
  gap ++ (quoted m.1 ++ ':' :: (behind ++ print m.2))

theorem compactItems_eq (items : List Json) :
    compactItems items = separated (itemText [] compactChars) items := by
  induction items with
  | nil => rfl
  | cons v items ih =>
    cases items with
    | nil => simp [compactItems, separated, itemText]
    | cons w rest => rw [compactItems, ih]; rfl

theorem compactMembers_eq (members : List (String × Json)) :
    compactMembers members = separated (memberText [] [] compactChars) members := by
  induction members with
  | nil => rfl
  | cons m members ih =>
    cases members with
    | nil => simp [compactMembers, separated, memberText]
    | cons m' rest =>
      rw [compactMembers, ih, separated_cons_cons]
      simp [memberText]

theorem blank_nil : Blank [] := by simp [Blank]

theorem nameText_quoted (name : String) {behind : List Char} (h : Blank behind) :
    NameText (quoted name ++ ':' :: behind) name :=
  ⟨quoted name, [], behind, stringText_quoted name, blank_nil, h, rfl⟩

section Spaced

variable {depth : Nat} {gap behind last : List Char} {print : Json → List Char}

/-- What is printed for an item spells a value. -/
def ItemSpelled (depth : Nat) (print : Json → List Char) (v w : Json) : Prop :=
  Spells depth (.value w) (print v)

/-- A name stays, and what is printed for its value spells a value. -/
def MemberSpelled (depth : Nat) (print : Json → List Char) (m m' : String × Json) : Prop :=
  m.1 = m'.1 ∧ ItemSpelled depth print m.2 m'.2

theorem spells_items (hgap : Blank gap) (hlast : Blank last) {vs ws : List Json}
    (h : List.Forall₂ (ItemSpelled depth print) vs ws) :
    Spells depth (.items ws) (vs.flatMap (',' :: itemText gap print ·) ++ (last ++ [']'])) := by
  induction h with
  | nil => exact .itemsEnd hlast
  | cons hv _ ih =>
    have hspells := Spells.itemsNext blank_nil hgap hv ih
    simpa [itemText] using hspells

/-- **Items that spell something spell a list**, with gaps before them and before the bracket. -/
theorem spells_arr (hgap : Blank gap) (hlast : Blank last) {vs ws : List Json}
    (h : List.Forall₂ (ItemSpelled depth print) vs ws) :
    Spells (depth + 1) (.value (.arr ws))
      ('[' :: (separated (itemText gap print) vs ++ (last ++ [']']))) := by
  cases h with
  | nil => exact .emptyList hlast
  | cons hv hvs =>
    have hspells := Spells.list hgap hv (spells_items hgap hlast hvs)
    simpa [separated, itemText] using hspells

theorem spells_members (hgap : Blank gap) (hbehind : Blank behind) (hlast : Blank last)
    {ms ms' : List (String × Json)} (h : List.Forall₂ (MemberSpelled depth print) ms ms') :
    Spells depth (.members ms')
      (ms.flatMap (',' :: memberText gap behind print ·) ++ (last ++ ['\x7d'])) := by
  induction h with
  | nil => exact .membersEnd hlast
  | @cons m m' ms ms' hm _ ih =>
    obtain ⟨name, v⟩ := m
    obtain ⟨name', w⟩ := m'
    obtain ⟨hname, hv⟩ := hm
    obtain rfl : name = name' := hname
    have hspells := Spells.membersNext blank_nil hgap (nameText_quoted name hbehind) hv ih
    simpa [memberText] using hspells

/-- **Members that spell something spell an object**, with gaps before them, behind their colons and
before the brace. -/
theorem spells_obj (hgap : Blank gap) (hbehind : Blank behind) (hlast : Blank last)
    {ms ms' : List (String × Json)} (h : List.Forall₂ (MemberSpelled depth print) ms ms') :
    Spells (depth + 1) (.value (.obj ms'))
      ('\x7b' :: (separated (memberText gap behind print) ms ++ (last ++ ['\x7d']))) := by
  cases h with
  | nil => exact .emptyObject hlast
  | @cons m m' ms ms' hm hms =>
    obtain ⟨name, v⟩ := m
    obtain ⟨name', w⟩ := m'
    obtain ⟨hname, hv⟩ := hm
    obtain rfl : name = name' := hname
    have hspells := Spells.object hgap (nameText_quoted name hbehind) hv
      (spells_members hgap hbehind hlast hms)
    simpa [separated, memberText] using hspells

end Spaced

/-! ## Values without blanks -/

/-- The text of the value `v` spells the value `w`. -/
def Written (depth : Nat) (v w : Json) : Prop := Spells depth (.value w) (compactChars v)

theorem written_str (depth : Nat) (s : String) : Written depth (.str s) (.str s) := by
  rw [Written, compactChars]
  exact .str (stringText_quoted s)

theorem written_bool (depth : Nat) (b : Bool) : Written depth (.bool b) (.bool b) := by
  rw [Written, compactChars]
  cases b with
  | true => exact .yes
  | false => exact .no

/-- A name stays, and the text of its value spells another one. -/
def MemberWritten (depth : Nat) (m m' : String × Json) : Prop :=
  m.1 = m'.1 ∧ Written depth m.2 m'.2

theorem written_obj {depth : Nat} {ms ms' : List (String × Json)}
    (h : List.Forall₂ (MemberWritten depth) ms ms') : Written (depth + 1) (.obj ms) (.obj ms') := by
  rw [Written, compactChars, compactMembers_eq]
  exact spells_obj blank_nil blank_nil blank_nil h

theorem Written.spelled {depth : Nat} {v w : Json} (h : Written depth v w)
    (hdepth : depth ≤ maxDepth) :
    Spelled v.compact w :=
  ⟨[], compactChars v, [], blank_nil, blank_nil, Spells.mono h hdepth, by simp [compact]⟩

end BotFleet.Json
