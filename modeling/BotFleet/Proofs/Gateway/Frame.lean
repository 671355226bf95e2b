import BotFleet.Gateway.Frame
import BotFleet.Proofs.Gateway.Members
import BotFleet.Proofs.Json.Reading

/-!
# Frames by their values

A frame is read in one pass over its text, its tag as soon as it is there and everything else kept
for later. What comes of that depends on nothing but the value that the text spells.

* `Union.tagOf`, `Union.sort`, `Union.frameOf`, `Union.ofJson`: the tag of a value, the members
  without the tag, and the frame and the message of a value;
* **`Union.readMembers_eq`**: the members are sorted while they are read;
* **`Union.ofText?_of_spelled`**: the message of a text is that of its value.
-/

namespace BotFleet

namespace Union

variable {μ : Type} (u : Union μ)

/-! ## Without a text -/

/-- The variant that a value names. -/
def tagOf : Json → Except FrameFlaw u.Tag
  | .str name => asShape (u.find name)
  | v => .error (.shape (.wrongType v.described "variant identifier"))

/-- The tag among some members and the other ones, with the tag and the members `seen` if some have
been looked at before, the last of them first. -/
def sort (tag? : Option u.Tag) (seen : List (String × Json)) :
    List (String × Json) → Except FrameFlaw (u.Tag × Body)
  | [] =>
    match tag? with
    | some tag => .ok (tag, .members seen.reverse)
    | none => .error (.shape (.missingField tagName))
  | (name, v) :: ms =>
    if name = tagName then
      match tag? with
      | some _ => .error (.shape (.duplicateField tagName))
      | none => do
        let tag ← u.tagOf v
        sort (some tag) seen ms
    else sort tag? ((name, v) :: seen) ms

/-- The frame of a value. -/
def frameOf : Json → Except FrameFlaw (u.Tag × Body)
  | .obj ms => u.sort none [] ms
  | .arr [] => .error (.shape (.missingField tagName))
  | .arr (v :: vs) => (u.tagOf v).map fun tag => (tag, .items vs)
  | v => .error (.shape (.wrongType v.described s!"internally tagged enum {u.title}"))

/-- The message of a value. -/
def ofJson (v : Json) : Except FrameFlaw μ := do
  let (tag, body) ← u.frameOf v
  asShape ((u.variants.get tag).ofBody u.title body)

/-! ## While reading -/

section Reading

open Json

theorem readOther_scalar {v : Json} {text : List Char} (hv : Spells 0 (.value v) text)
    {rest : List Char} (hrest : Ends rest) : readOther (text ++ rest) = .ok (v, rest) := by
  have hread := hv.reads rest (stepsFor (text ++ rest)) hrest (by
    rw [stepsFor, List.length_append]
    omega)
  unfold readOther
  split
  · rename_i heq
    rw [heq] at hread
    cases hread
  · rename_i heq
    rw [heq] at hread
    cases hread
  · exact hread

/-- A tag is read without looking into lists and objects, in which there is none. -/
theorem readTag_eq {before : List Char} (hb : Blank before) {depth : Nat} {v : Json}
    {text : List Char} (hv : Spells depth (.value v) text) {rest : List Char} (hrest : Ends rest) :
    u.readTag (before ++ (text ++ rest)) = (u.tagOf v).map fun tag => (tag, rest) := by
  obtain ⟨c, cs, htext, hblank, -⟩ := hv.start
  have hskip : skipBlanks (before ++ (text ++ rest)) = text ++ rest := by
    rw [skipBlanks_append hb, htext, List.cons_append, skipBlanks_cons hblank]
  rw [readTag, hskip]
  cases hv with
  | null => rw [readOther_scalar .null hrest]; rfl
  | yes => rw [readOther_scalar .yes hrest]; rfl
  | no => rw [readOther_scalar .no hrest]; rfl
  | number n hn hval =>
    rw [readOther_scalar (.number n hn hval) hrest]
    obtain ⟨k, rfl⟩ | ⟨d, rfl⟩ := n.number_of_value? hval <;> rfl
  | str hs =>
    rw [readOther_scalar (.str hs) hrest]
    simp only [asFrame, bind, Except.bind, tagOf]
    cases asShape (u.find _) <;> rfl
  | emptyList | list | emptyObject | object => rfl

/-- What is read of a frame besides its tag and its body. -/
def attach (rest : List Char) (frame : u.Tag × Body) : u.Tag × Body × List Char :=
  (frame.1, frame.2, rest)

theorem readMembers_item {first : Bool} {cs left after text rest rest' : List Char} {name : String}
    {v : Json} {ms : List (String × Json)} {fuel : Nat}
    (hnext : nextMember first cs = .ok (.item name left))
    (hcolon : expectColon left = .ok (after ++ (text ++ rest))) (ha : Blank after)
    (hv : Spells (maxDepth - 1) (.value v) text) (hrest : Ends rest)
    (hlater : ∀ tag? seen, u.readMembers tag? false seen fuel rest =
      (u.sort tag? seen ms).map (u.attach rest'))
    (tag? : Option u.Tag) (seen : List (String × Json)) :
    u.readMembers tag? first seen (fuel + 1) cs =
      (u.sort tag? seen ((name, v) :: ms)).map (u.attach rest') := by
  have hread := hv.reads rest (stepsFor (after ++ (text ++ rest))) hrest (by
    simp only [stepsFor, List.length_append]
    omega)
  rw [readMembers]
  unfold sort
  simp only [hnext, asFrame, bind, Except.bind]
  by_cases hname : name = tagName
  · simp only [if_pos hname]
    cases tag? with
    | some tag => rfl
    | none =>
      simp only [hcolon, u.readTag_eq ha hv hrest]
      cases u.tagOf v with
      | error e => rfl
      | ok tag => exact hlater (some tag) seen
  · simp only [if_neg hname, hcolon, readValue, readValueIn_append ha, hread]
    exact hlater tag? ((name, v) :: seen)

/-- **The members are sorted while they are read.** -/
theorem readMembers_eq {ms : List (String × Json)} {text : List Char}
    (h : Spells (maxDepth - 1) (.members ms) text) (rest : List Char) {fuel : Nat}
    (hfuel : 2 * text.length ≤ fuel) (tag? : Option u.Tag) (seen : List (String × Json)) :
    u.readMembers tag? false seen fuel (text ++ rest) =
      (u.sort tag? seen ms).map (u.attach rest) := by
  generalize hd : maxDepth - 1 = depth at h
  generalize hp : Part.members ms = part at h
  induction h generalizing ms fuel tag? seen with
  | @membersEnd depth before hb =>
    cases hp
    obtain ⟨fuel, rfl⟩ : ∃ f, fuel = f + 1 := ⟨fuel - 1, by simp at hfuel; omega⟩
    rw [List.append_assoc, readMembers]
    simp only [List.singleton_append, nextMember_end hb, asFrame, bind, Except.bind, sort]
    cases tag? <;> rfl
  | @membersNext depth before after label text tail name v ms hb ha hl hv hms _ ih =>
    cases hp
    subst hd
    simp only [List.length_cons, List.length_append] at hfuel
    obtain ⟨fuel, rfl⟩ : ∃ f, fuel = f + 1 := ⟨fuel - 1, by omega⟩
    obtain ⟨left, after', hafter, hname, hcolon⟩ :=
      nextMember_next hb ha hl (text ++ (tail ++ rest))
    simp only [List.append_assoc, List.cons_append]
    exact u.readMembers_item hname hcolon hafter hv (hms.ends (by simp) rest)
      (fun tag? seen => ih (by omega) tag? seen rfl rfl) tag? seen
  | _ => cases hp

theorem readFrame_scalar {cs' cs rest : List Char} {v : Json} (hskip : skipBlanks cs' = cs)
    (hopen : ∀ cs', cs ≠ '\x7b' :: cs' ∧ cs ≠ '[' :: cs')
    (hread : readValueIn maxDepth (stepsFor cs) cs = .ok (v, rest)) :
    u.readFrame cs' =
      .error (.shape (.wrongType v.described s!"internally tagged enum {u.title}")) := by
  rw [readFrame, hskip]
  split
  · exact absurd rfl (hopen _).1
  · exact absurd rfl (hopen _).2
  · simp only [readValue, hread, asFrame, bind, Except.bind]

/-- **The frame of a text is that of its value.** -/
theorem readFrame_eq {before after chars : List Char} (hb : Blank before) (ha : Blank after)
    {v : Json} (hv : Spells maxDepth (.value v) chars) :
    u.readFrame (before ++ (chars ++ after)) = (u.frameOf v).map (u.attach after) := by
  obtain ⟨c, cs, htext, hblank, -⟩ := hv.start
  have hskip : skipBlanks (before ++ (chars ++ after)) = chars ++ after := by
    rw [skipBlanks_append hb, htext, List.cons_append, skipBlanks_cons hblank]
  have hread := hv.reads after (stepsFor (chars ++ after)) (ends_of_blank ha) (by
    simp only [stepsFor, List.length_append]
    omega)
  generalize hd : maxDepth = depth at hv
  cases hv with
  | @emptyObject depth before' hb' =>
    rw [readFrame, hskip]
    simp only [List.cons_append, List.append_assoc, List.nil_append, stepsFor]
    rw [readMembers]
    simp only [nextMember_end hb', asFrame, bind, Except.bind]
    rfl
  | @object depth before' label text tail name v ms hb' hl hv hms =>
    obtain rfl : depth = maxDepth - 1 := by rw [hd]; rfl
    obtain ⟨left, after', hafter, hname, hcolon⟩ :=
      nextMember_first hb' hl (text ++ (tail ++ after))
    rw [readFrame, hskip]
    simp only [List.cons_append, List.append_assoc]
    refine u.readMembers_item hname hcolon hafter hv (hms.ends (by simp) after)
      (fun tag? seen => u.readMembers_eq hms after ?_ tag? seen) none []
    simp only [List.length_append]
    omega
  | @emptyList depth before' hb' =>
    rw [readFrame, hskip]
    simp only [List.cons_append, List.append_assoc, List.nil_append, readList, nextItem_end hb',
      asFrame, bind, Except.bind]
    rfl
  | @list depth before' text tail v vs hb' hv hvs =>
    obtain rfl : depth = maxDepth - 1 := by rw [hd]; rfl
    have hnil : Blank [] := by simp [Blank]
    have htag := u.readTag_eq hnil hv (hvs.ends (by simp) after)
    have hitems := hvs.reads [] after (stepsFor (tail ++ after)) (by
      simp only [stepsFor, List.length_append]
      omega)
    rw [List.nil_append] at htag
    rw [readFrame, hskip]
    simp only [List.cons_append, List.append_assoc, readList, nextItem_first hb' hv, asFrame, bind,
      Except.bind, htag, frameOf]
    cases u.tagOf v with
    | error e => rfl
    | ok tag => simp only [Except.map, hitems]; rfl
  | null | yes | no => rw [readFrame, hskip]; rfl
  | number n hn hval =>
    subst hd
    obtain ⟨d, ds, hds, hd'⟩ := hn.start
    have hopen : d ≠ '\x7b' ∧ d ≠ '[' := by constructor <;> rintro rfl <;> simp at hd'
    rw [u.readFrame_scalar hskip (by simp [hds, hopen]) hread]
    obtain ⟨k, rfl⟩ | ⟨x, rfl⟩ := n.number_of_value? hval <;> rfl
  | str hs =>
    subst hd
    obtain ⟨body, -, rfl⟩ := hs
    rw [u.readFrame_scalar hskip (by simp) hread]
    rfl

/-- **The message of a text is that of its value.** -/
theorem ofText?_of_spelled {text : String} {v : Json} (h : Spelled text v) :
    u.ofText? text = u.ofJson v := by
  obtain ⟨before, chars, after, hbefore, hafter, hv, htext⟩ := h
  rw [ofText?, htext, u.readFrame_eq hbefore hafter hv, ofJson]
  cases u.frameOf v with
  | error e => rfl
  | ok frame =>
    simp only [Except.map, attach, bind, Except.bind, expectEnd_of_blank hafter, asFrame]
    cases asShape _ <;> rfl

end Reading

end Union

end BotFleet
