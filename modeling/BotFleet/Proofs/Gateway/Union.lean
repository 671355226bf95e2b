import BotFleet.Proofs.Gateway.Frame
import Mathlib.Data.List.Nodup

/-!
# What a union reads

The message of an object is that of the one variant that its tag names, and depends on nothing but
the tag and the fields of that variant.

* `Union.WellFormed`: no two variants and no two fields of a variant have the same name, and no
  field has that of the tag;
* **`Union.ofJson_obj_eq_ok_iff`**, **`Union.ofJson_arr_eq_ok_iff`**: the message of an object and
  of a list;
* **`Union.ofJson_ne_text`**: a value is refused for its shape only;
* `Shuffled`, `Union.Counts`, `Union.Rearranged`: changes to an object that leave alone what counts;
* **`Union.ofJson_rearranged`**: such changes do not matter;
* **`Union.ofJson_listed`**: an object is read as the list of its fields.
-/

namespace BotFleet

theorem asShape_eq_ok_iff {α : Type} (x : Except Mismatch α) (a : α) :
    asShape x = .ok a ↔ x = .ok a := by
  cases x <;> simp [asShape]

namespace Union

variable {μ : Type} {u : Union μ}

/-- The variants and their fields can be told apart by their names. -/
structure WellFormed (u : Union μ) : Prop where
  variants : (u.variants.map Variant.name).Nodup
  fields : ∀ w ∈ u.variants, (w.fields.map Field.name).Nodup
  tag : ∀ w ∈ u.variants, ∀ f ∈ w.fields, f.name ≠ tagName

/-! ## The variant -/

theorem find_eq_ok_iff (hu : u.WellFormed) (name : String) (tag : u.Tag) :
    u.find name = .ok tag ↔ (u.variants.get tag).name = name := by
  have hfind : u.find name = .ok tag ↔
      u.variants.findFinIdx? (fun w => w.name = name) = some tag := by
    unfold find
    cases u.variants.findFinIdx? fun w => w.name = name <;> simp
  rw [hfind, List.findFinIdx?_eq_some_iff]
  simp only [decide_eq_true_eq]
  refine ⟨fun h => h.1, fun h => ⟨h, fun j hj hname => ?_⟩⟩
  have hsame : (u.variants.map Variant.name)[j] = (u.variants.map Variant.name)[tag] := by
    simpa using hname.trans h.symm
  exact absurd (hu.variants.getElem_inj_iff.mp hsame) (Nat.ne_of_lt hj)

theorem tagOf_eq_ok_iff (hu : u.WellFormed) (v : Json) (tag : u.Tag) :
    u.tagOf v = .ok tag ↔ v = .str (u.variants.get tag).name := by
  cases v with
  | str name =>
    have hname := u.find_eq_ok_iff hu name tag
    rw [Json.str.injEq, eq_comm (a := name), ← hname, tagOf]
    cases u.find name <;> simp [asShape]
  | _ => simp [tagOf]

/-! ## The body -/

theorem sort_some_eq_ok_iff (tag : u.Tag) (seen ms : List (String × Json)) (tag' : u.Tag)
    (body : Body) :
    u.sort (some tag) seen ms = .ok (tag', body) ↔
      tag = tag' ∧ (∀ m ∈ ms, m.1 ≠ tagName) ∧ .members (seen.reverse ++ ms) = body := by
  induction ms generalizing seen with
  | nil => simp [sort]
  | cons m ms ih =>
    obtain ⟨name, v⟩ := m
    rw [sort]
    by_cases hname : name = tagName
    · simp [hname]
    · rw [if_neg hname, ih]
      simp [hname]

theorem sort_none_eq_ok_iff (seen ms : List (String × Json)) (tag : u.Tag) (body : Body) :
    u.sort none seen ms = .ok (tag, body) ↔
      ∃ v, Once ms tagName v ∧ u.tagOf v = .ok tag ∧
        .members (seen.reverse ++ ms.filter (·.1 ≠ tagName)) = body := by
  induction ms generalizing seen with
  | nil => simp [sort, Once]
  | cons m ms ih =>
    obtain ⟨name, w⟩ := m
    rw [sort]
    by_cases hname : name = tagName
    · subst hname
      have hothers : (∀ m ∈ ms, m.1 ≠ tagName) →
          ((tagName, w) :: ms).filter (·.1 ≠ tagName) = ms := fun h => by
        rw [List.filter_cons_of_neg (by simp), List.filter_eq_self.mpr (by simpa using h)]
      simp only [if_pos, once_cons_self]
      cases htag : u.tagOf w with
      | error e =>
        simp only [bind, Except.bind, reduceCtorEq, false_iff, not_exists, not_and]
        rintro v ⟨rfl, -⟩ hv
        rw [htag] at hv
        cases hv
      | ok tag' =>
        simp only [bind, Except.bind, sort_some_eq_ok_iff]
        constructor
        · rintro ⟨rfl, hms, hbody⟩
          exact ⟨w, ⟨rfl, hms⟩, htag, by rw [hothers hms, hbody]⟩
        · rintro ⟨v, ⟨rfl, hms⟩, hv, hbody⟩
          rw [htag] at hv
          rw [hothers hms] at hbody
          exact ⟨Except.ok.inj hv, hms, hbody⟩
    · rw [if_neg hname, ih]
      simp [once_cons_of_ne hname, hname]

theorem ofBody_members_eq_ok_iff (hu : u.WellFormed) {w : Variant μ} (hw : w ∈ u.variants)
    (title : String) (ms : List (String × Json)) (m : μ) :
    w.ofBody title (.members (ms.filter (·.1 ≠ tagName))) = .ok m ↔
      ∃ row, Row.Holds w.fields ms row ∧ w.build row = m := by
  have hfilter (row : Row w.fields) :
      Row.Holds w.fields (ms.filter (·.1 ≠ tagName)) row ↔ Row.Holds w.fields ms row :=
    Row.holds_congr (fun f hf x => by simp only [once_filter (hu.tag w hw f hf).symm]) row
  have hread (ms' : List (String × Json)) : (Row.ofMembers w.fields ms').map w.build = .ok m ↔
      ∃ row, Row.Holds w.fields ms' row ∧ w.build row = m := by
    simp only [← Row.ofMembers_eq_ok_iff (hu.fields w hw)]
    cases Row.ofMembers w.fields ms' <;> simp [Except.map]
  simp only [← hfilter]
  rw [← hread, Variant.ofBody]
  split
  · rename_i hempty
    -- a variant without fields is in any members
    rw [hread, hread]
    obtain ⟨name, title, fields, build⟩ := w
    cases fields with
    | nil => rfl
    | cons f fields => cases hempty
  · rfl

/-! ## Objects and lists -/

/-- **The message of an object**: that of the variant that the tag names, with the record of its
fields. -/
theorem ofJson_obj_eq_ok_iff (hu : u.WellFormed) (ms : List (String × Json)) (m : μ) :
    u.ofJson (.obj ms) = .ok m ↔ ∃ w ∈ u.variants, Once ms tagName (.str w.name) ∧
      ∃ row, Row.Holds w.fields ms row ∧ w.build row = m := by
  have hframe : u.ofJson (.obj ms) = .ok m ↔ ∃ tag body, u.sort none [] ms = .ok (tag, body) ∧
      (u.variants.get tag).ofBody u.title body = .ok m := by
    rw [ofJson, frameOf]
    cases u.sort none [] ms with
    | error e => simp [bind, Except.bind]
    | ok frame =>
      obtain ⟨tag, body⟩ := frame
      simp [bind, Except.bind, asShape_eq_ok_iff]
  rw [hframe]
  simp only [sort_none_eq_ok_iff, tagOf_eq_ok_iff hu]
  constructor
  · rintro ⟨tag, body, ⟨v, htag, rfl, rfl⟩, hm⟩
    have hmem := List.get_mem u.variants tag
    exact ⟨_, hmem, htag, (ofBody_members_eq_ok_iff hu hmem _ ms m).mp hm⟩
  · rintro ⟨w, hw, htag, hm⟩
    obtain ⟨tag, rfl⟩ := List.mem_iff_get.mp hw
    exact ⟨tag, _, ⟨_, htag, rfl, rfl⟩, (ofBody_members_eq_ok_iff hu hw _ ms m).mpr hm⟩

/-- **The message of a list** that begins with a name: that of the variant of this name, with the
record of the other items. -/
theorem ofJson_arr_eq_ok_iff (hu : u.WellFormed) (name : String) (vs : List Json) (m : μ) :
    u.ofJson (.arr (.str name :: vs)) = .ok m ↔ ∃ w ∈ u.variants, w.name = name ∧
      ∃ row, Row.Lists w.fields vs row ∧ w.build row = m := by
  have hframe : u.ofJson (.arr (.str name :: vs)) = .ok m ↔ ∃ tag, u.find name = .ok tag ∧
      ((u.variants.get tag).ofBody u.title (.items vs)) = .ok m := by
    rw [ofJson, frameOf, tagOf]
    cases u.find name with
    | error e => simp [asShape, Except.map, bind, Except.bind]
    | ok tag =>
      have htag : asShape (.ok tag) = .ok tag := rfl
      simp [htag, Except.map, bind, Except.bind, asShape_eq_ok_iff]
  rw [hframe]
  have hbody (w : Variant μ) : w.ofBody u.title (.items vs) = .ok m ↔
      ∃ row, Row.Lists w.fields vs row ∧ w.build row = m := by
    rw [Variant.ofBody]
    simp only [← Row.ofItems_eq_ok_iff s!"struct variant {u.title}::{w.title}"]
    cases Row.ofItems s!"struct variant {u.title}::{w.title}" w.fields vs <;> simp [Except.map]
  simp only [find_eq_ok_iff hu, hbody]
  constructor
  · rintro ⟨tag, hname, hm⟩
    exact ⟨_, List.get_mem u.variants tag, hname, hm⟩
  · rintro ⟨w, hw, hname, hm⟩
    obtain ⟨tag, rfl⟩ := List.mem_iff_get.mp hw
    exact ⟨tag, hname, hm⟩

/-! ## Refusals -/

theorem tagOf_ne_text (v : Json) (flaw : Flaw) : u.tagOf v ≠ .error (.text flaw) := by
  cases v with
  | str name => rw [tagOf]; cases u.find name <;> simp [asShape]
  | _ => simp [tagOf]

theorem sort_ne_text (tag? : Option u.Tag) (seen ms : List (String × Json)) (flaw : Flaw) :
    u.sort tag? seen ms ≠ .error (.text flaw) := by
  induction ms generalizing tag? seen with
  | nil => cases tag? <;> simp [sort]
  | cons m ms ih =>
    obtain ⟨name, v⟩ := m
    unfold sort
    split
    · cases tag? with
      | some tag => simp
      | none =>
        have htag := u.tagOf_ne_text v flaw
        cases hv : u.tagOf v with
        | error e => rw [hv] at htag; simpa [bind, Except.bind] using htag
        | ok tag => exact ih (some tag) seen
    · exact ih tag? _

/-- **A value is refused for its shape only.** -/
theorem ofJson_ne_text (v : Json) (flaw : Flaw) : u.ofJson v ≠ .error (.text flaw) := by
  have hframe : u.frameOf v ≠ .error (.text flaw) := by
    cases v with
    | obj ms => exact u.sort_ne_text none [] ms flaw
    | arr vs =>
      cases vs with
      | nil => simp [frameOf]
      | cons v vs =>
        have htag := u.tagOf_ne_text v flaw
        rw [frameOf]
        cases hv : u.tagOf v with
        | error e => rw [hv] at htag; simpa [Except.map] using htag
        | ok tag => simp [Except.map]
    | _ => simp [frameOf]
  rw [ofJson]
  cases hv : u.frameOf v with
  | error e => rw [hv] at hframe; simpa [bind, Except.bind] using hframe
  | ok frame =>
    simp only [bind, Except.bind]
    cases (u.variants.get frame.1).ofBody u.title frame.2 <;> simp [asShape]

end Union

/-! ## What does not count -/

/-- Changes to some members: they are put into another order, and members whose name does not count
are added or taken away. -/
inductive Shuffled (counts : String → Prop) :
    List (String × Json) → List (String × Json) → Prop where
  | order {ms ms' : List (String × Json)} : ms.Perm ms' → Shuffled counts ms ms'
  | added {ms : List (String × Json)} {name : String} (v : Json) : ¬counts name →
      Shuffled counts ms ((name, v) :: ms)
  | symm {ms ms' : List (String × Json)} : Shuffled counts ms ms' → Shuffled counts ms' ms
  | trans {ms ms' ms'' : List (String × Json)} : Shuffled counts ms ms' → Shuffled counts ms' ms'' →
      Shuffled counts ms ms''

theorem Shuffled.once_iff {counts : String → Prop} {ms ms' : List (String × Json)}
    (h : Shuffled counts ms ms') {name : String} (hname : counts name) (v : Json) :
    Once ms name v ↔ Once ms' name v := by
  induction h with
  | order hperm => exact ⟨fun h => h.perm hperm, fun h => h.perm hperm.symm⟩
  | @added ms other w hother =>
    have hne : other ≠ name := by rintro rfl; exact hother hname
    exact (once_cons_of_ne hne).symm
  | symm _ ih => exact ih.symm
  | trans _ _ ih ih' => exact ih.trans ih'

theorem Field.point_read_shuffled {ms ms' : List (String × Json)}
    (h : Shuffled (· ∈ Field.coordinates.map Field.name) ms ms') (name : String) (p : Point) :
    (Field.point name).read (.obj ms) = .ok p ↔ (Field.point name).read (.obj ms') = .ok p := by
  have hholds : ∀ row : Row Field.coordinates,
      Row.Holds Field.coordinates ms row ↔ Row.Holds Field.coordinates ms' row :=
    Row.holds_congr fun f hf x => exists_congr fun v =>
      and_congr_left fun _ => h.once_iff (List.mem_map_of_mem hf) v
  have hread (ms : List (String × Json)) : (Field.point name).read (.obj ms) = .ok p ↔
      ∃ row, Row.Holds Field.coordinates ms row ∧ Field.toPoint row = p := by
    have hnames : (Field.coordinates.map Field.name).Nodup := by decide
    have hrow := Row.ofMembers_eq_ok_iff hnames ms
    simp only [← hrow, Field.point]
    cases Row.ofMembers Field.coordinates ms <;> simp [Except.map]
  simp only [hread, hholds]

namespace Union

variable {μ : Type} {u : Union μ}

/-- The members of an object that count: the tag, and the fields of the variant that it names. -/
def Counts (u : Union μ) (ms : List (String × Json)) (name : String) : Prop :=
  name = tagName ∨
    ∃ w ∈ u.variants, Once ms tagName (.str w.name) ∧ ∃ f ∈ w.fields, f.name = name

/-- **Changes to an object that leave alone what counts**, in it or in a point that is one of its
fields. -/
inductive Rearranged (u : Union μ) : List (String × Json) → List (String × Json) → Prop where
  | members {ms ms' : List (String × Json)} : Shuffled (u.Counts ms) ms ms' → Rearranged u ms ms'
  | point {name : String} {inner inner' ms : List (String × Json)} : name ≠ tagName →
      (∀ w ∈ u.variants, Once ms tagName (.str w.name) → ∀ f ∈ w.fields, f.name = name →
        f = .point name) →
      Shuffled (· ∈ Field.coordinates.map Field.name) inner inner' →
      Rearranged u ((name, .obj inner) :: ms) ((name, .obj inner') :: ms)
  | trans {ms ms' ms'' : List (String × Json)} : Rearranged u ms ms' → Rearranged u ms' ms'' →
      Rearranged u ms ms''

/-- Objects with the same tag are read alike if each field of the variant that it names is. -/
theorem ofJson_congr (hu : u.WellFormed) {ms ms' : List (String × Json)}
    (htag : ∀ v, Once ms tagName v ↔ Once ms' tagName v)
    (hfields : ∀ w ∈ u.variants, Once ms tagName (.str w.name) → ∀ f ∈ w.fields, ∀ x,
      (∃ v, Once ms f.name v ∧ f.read v = .ok x) ↔ ∃ v, Once ms' f.name v ∧ f.read v = .ok x)
    (m : μ) : u.ofJson (.obj ms) = .ok m ↔ u.ofJson (.obj ms') = .ok m := by
  rw [ofJson_obj_eq_ok_iff hu, ofJson_obj_eq_ok_iff hu]
  refine exists_congr fun w => and_congr_right fun hw => ?_
  rw [← htag]
  refine and_congr_right fun hname => exists_congr fun row => ?_
  rw [Row.holds_congr (hfields w hw hname)]

/-- **Changes that leave alone what counts do not matter.** -/
theorem ofJson_rearranged (hu : u.WellFormed) {ms ms' : List (String × Json)}
    (h : u.Rearranged ms ms') (m : μ) :
    u.ofJson (.obj ms) = .ok m ↔ u.ofJson (.obj ms') = .ok m := by
  induction h with
  | members h =>
    refine ofJson_congr hu (fun v => h.once_iff (.inl rfl) v) (fun w hw hname f hf x => ?_) m
    simp only [h.once_iff (.inr ⟨w, hw, hname, f, hf, rfl⟩)]
  | @point name inner inner' ms htag hpoint hinner =>
    refine ofJson_congr hu (fun v => by rw [once_cons_of_ne htag, once_cons_of_ne htag])
      (fun w hw hname f hf x => ?_) m
    by_cases hf' : name = f.name
    · obtain rfl := hpoint w hw ((once_cons_of_ne htag).mp hname) f hf hf'.symm
      have hself (inner : List (String × Json)) (v : Json) :
          Once ((name, .obj inner) :: ms) (Field.point name).name v ↔
            .obj inner = v ∧ ∀ m ∈ ms, m.1 ≠ name := once_cons_self
      simp only [hself, and_assoc, exists_eq_left']
      exact and_congr_right fun _ => Field.point_read_shuffled hinner name x
    · simp only [once_cons_of_ne hf']
  | trans _ _ ih ih' => exact ih.trans ih'

/-- **An object is read as the list of its fields**, the name of its variant first. -/
theorem ofJson_listed (hu : u.WellFormed) {ms : List (String × Json)} {w : Variant μ}
    (hw : w ∈ u.variants) (hname : Once ms tagName (.str w.name)) {vs : List Json}
    (hvs : List.Forall₂ (fun f v => Once ms f.name v) w.fields vs) (m : μ) :
    u.ofJson (.arr (.str w.name :: vs)) = .ok m ↔ u.ofJson (.obj ms) = .ok m := by
  have hsame {w' : Variant μ} (hw' : w' ∈ u.variants) (h : w'.name = w.name) : w' = w :=
    List.inj_on_of_nodup_map hu.variants hw' hw h
  rw [ofJson_obj_eq_ok_iff hu, ofJson_arr_eq_ok_iff hu]
  constructor
  · rintro ⟨w', hw', h, row, hrow, hm⟩
    obtain rfl := hsame hw' h
    exact ⟨_, hw, hname, row, (Row.lists_iff_holds hvs row).mp hrow, hm⟩
  · rintro ⟨w', hw', h, row, hrow, hm⟩
    obtain rfl := hsame hw' (Json.str.inj (h.unique hname))
    exact ⟨_, hw, rfl, row, (Row.lists_iff_holds hvs row).mpr hrow, hm⟩

end Union

end BotFleet
