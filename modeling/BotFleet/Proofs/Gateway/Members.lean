import BotFleet.Gateway.Field
import Mathlib.Data.List.Forall2

/-!
# Members of an object, and items of a list

A record is in an object if each of its fields occurs there once and can be read; nothing else in
the object matters. It is in a list if the items are the fields in their order.

* `Once`: a name occurs once among some members, with a given value;
* `Row.Holds`, **`Row.ofMembers_eq_ok_iff`**: the record in an object;
* `Row.Lists`, **`Row.ofItems_eq_ok_iff`**: the record in a list;
* **`Row.lists_iff_holds`**: both are the same if the items are the members in order.
-/

namespace BotFleet

/-! ## Names that occur once -/

/-- A name occurs once among some members, with this value. -/
def Once (ms : List (String × Json)) (name : String) (v : Json) : Prop :=
  ms.filter (·.1 = name) = [(name, v)]

section Once

variable {ms ms' : List (String × Json)} {name other : String} {v w : Json}

theorem Once.unique (h : Once ms name v) (h' : Once ms name w) : v = w := by
  have hsame := h.symm.trans h'
  simpa using hsame

theorem Once.perm (h : Once ms name v) (hp : ms.Perm ms') : Once ms' name v :=
  List.perm_singleton.mp (h ▸ (hp.filter _).symm)

theorem once_cons_of_ne (hne : other ≠ name) :
    Once ((other, w) :: ms) name v ↔ Once ms name v := by
  unfold Once
  rw [List.filter_cons_of_neg (by simpa using hne)]

theorem once_cons_self :
    Once ((name, w) :: ms) name v ↔ w = v ∧ ∀ m ∈ ms, m.1 ≠ name := by
  unfold Once
  rw [List.filter_cons_of_pos (by simp), List.cons.injEq, List.filter_eq_nil_iff]
  simp

theorem once_filter (hne : other ≠ name) :
    Once (ms.filter (·.1 ≠ other)) name v ↔ Once ms name v := by
  unfold Once
  rw [List.filter_filter]
  refine iff_of_eq (congrArg (· = _) (List.filter_congr fun m _ => ?_))
  by_cases hm : m.1 = name
  · simp [hm, hne.symm]
  · simp [hm]

end Once

/-! ## Records in an object -/

namespace Slots

theorem mk_eq_iff {f : Field} {rest : List Field} {x? y? : Option f.Value}
    {slots slots' : Slots rest} :
    ((x?, slots) : Slots (f :: rest)) = (y?, slots') ↔ x? = y? ∧ slots = slots' :=
  Prod.mk.injEq .. ▸ Iff.rfl

/-- What a field comes to know from some members: it keeps a value only if its name does not occur
again. -/
def Learns (f : Field) (ms : List (String × Json)) : Option f.Value → Option f.Value → Prop
  | some x, y? => y? = some x ∧ ∀ m ∈ ms, m.1 ≠ f.name
  | Option.none, some x => ∃ v, Once ms f.name v ∧ f.read v = .ok x
  | Option.none, Option.none => ∀ m ∈ ms, m.1 ≠ f.name

/-- What some fields come to know from some members. -/
def Learn : (fields : List Field) → List (String × Json) → Slots fields → Slots fields → Prop
  | [], _, _, _ => True
  | f :: rest, ms, (x?, slots), (y?, slots') => Learns f ms x? y? ∧ Learn rest ms slots slots'

/-- The values of a whole record. -/
def ofRow : (fields : List Field) → Row fields → Slots fields
  | [], _ => ()
  | _ :: rest, (x, row) => (some x, ofRow rest row)

theorem learns_nil (f : Field) (x? y? : Option f.Value) : Learns f [] x? y? ↔ y? = x? := by
  cases x? with
  | some x => simp [Learns]
  | none => cases y? <;> simp [Learns, Once]

theorem learns_cons_of_ne {f : Field} {name : String} (h : name ≠ f.name) (v : Json)
    (ms : List (String × Json)) (x? y? : Option f.Value) :
    Learns f ((name, v) :: ms) x? y? ↔ Learns f ms x? y? := by
  cases x? with
  | some x => simp [Learns, h]
  | none => cases y? <;> simp [Learns, once_cons_of_ne h, h]

theorem learn_nil (fields : List Field) (slots slots' : Slots fields) :
    Learn fields [] slots slots' ↔ slots' = slots := by
  induction fields with
  | nil => exact ⟨fun _ => rfl, fun _ => trivial⟩
  | cons f rest ih =>
    obtain ⟨x?, slots⟩ := slots
    obtain ⟨y?, slots'⟩ := slots'
    exact (and_congr (learns_nil f x? y?) (ih slots slots')).trans mk_eq_iff.symm

theorem learn_cons_of_not_mem {fields : List Field} {name : String}
    (h : name ∉ fields.map Field.name) (v : Json) (ms : List (String × Json))
    (slots slots' : Slots fields) :
    Learn fields ((name, v) :: ms) slots slots' ↔ Learn fields ms slots slots' := by
  induction fields with
  | nil => exact Iff.rfl
  | cons f rest ih =>
    obtain ⟨x?, slots⟩ := slots
    obtain ⟨y?, slots'⟩ := slots'
    rw [List.map_cons, List.mem_cons, not_or] at h
    rw [Learn, Learn, learns_cons_of_ne h.1, ih h.2]

/-- **What some fields learn from one member more**: they take it into account, and learn the rest
from the others. -/
theorem learn_cons {fields : List Field} (hnames : (fields.map Field.name).Nodup) (name : String)
    (v : Json) (ms : List (String × Json)) (slots slots' : Slots fields) :
    Learn fields ((name, v) :: ms) slots slots' ↔
      ∃ between, offer fields slots name v = .ok between ∧ Learn fields ms between slots' := by
  induction fields with
  | nil => simp [Learn, offer]
  | cons f rest ih =>
    obtain ⟨x?, slots⟩ := slots
    obtain ⟨y?, slots'⟩ := slots'
    rw [List.map_cons, List.nodup_cons] at hnames
    by_cases hf : f.name = name
    · -- the field is the one that the member is about
      subst hf
      rw [Learn, learn_cons_of_not_mem hnames.1]
      cases x? with
      | some x => simp [offer, Learns]
      | none =>
        cases hread : f.read v with
        | error e =>
          cases y? <;> simp [offer, hread, Learns, once_cons_self, Except.map]
        | ok x =>
          have hoffer : offer (f :: rest) (Option.none, slots) f.name v =
              .ok ((some x, slots) : Slots (f :: rest)) := by
            simp only [offer, if_true, hread, Except.map]
          have hlearns : Learns f ((f.name, v) :: ms) Option.none y? ↔ Learns f ms (some x) y? := by
            cases y? with
            | none => simp [Learns]
            | some y => simp [Learns, once_cons_self, hread, eq_comm, and_comm]
          rw [hlearns]
          refine ⟨fun h => ⟨_, hoffer, h⟩, fun ⟨between, h, hlearn⟩ => ?_⟩
          obtain rfl := Except.ok.inj (hoffer.symm.trans h)
          exact hlearn
    · have ih := ih hnames.2 slots slots'
      rw [Learn, learns_cons_of_ne (Ne.symm hf), ih]
      constructor
      · rintro ⟨hlearns, between, hoffer, hlearn⟩
        exact ⟨(x?, between), by simp [offer, hf, hoffer, Except.map], hlearns, hlearn⟩
      · rintro ⟨⟨z?, between⟩, hoffer, hlearns, hlearn⟩
        simp only [offer, if_neg hf] at hoffer
        cases hrest : offer rest slots name v with
        | error e => rw [hrest] at hoffer; cases hoffer
        | ok between' =>
          rw [hrest] at hoffer
          cases hoffer
          exact ⟨hlearns, _, rfl, hlearn⟩

/-- **What some fields learn from all members**, one after the other. -/
theorem foldlM_offer_eq_ok_iff {fields : List Field} (hnames : (fields.map Field.name).Nodup)
    (ms : List (String × Json)) (slots slots' : Slots fields) :
    ms.foldlM (fun slots (name, v) => offer fields slots name v) slots = .ok slots' ↔
      Learn fields ms slots slots' := by
  induction ms generalizing slots with
  | nil =>
    rw [learn_nil]
    simp [pure, Except.pure, eq_comm]
  | cons m ms ih =>
    obtain ⟨name, v⟩ := m
    rw [List.foldlM_cons, learn_cons hnames]
    cases hoffer : offer fields slots name v with
    | error e => simp [bind, Except.bind, hoffer]
    | ok between =>
      simp only [bind, Except.bind, hoffer, Except.ok.injEq, exists_eq_left', ih]

theorem all_eq_ok_iff {fields : List Field} (slots : Slots fields) (row : Row fields) :
    all fields slots = .ok row ↔ slots = ofRow fields row := by
  induction fields with
  | nil =>
    exact ⟨fun _ => rfl, fun _ => rfl⟩
  | cons f rest ih =>
    obtain ⟨x?, slots⟩ := slots
    obtain ⟨y, row⟩ := row
    refine Iff.trans ?_ mk_eq_iff.symm
    rw [← ih]
    cases x? with
    | none => simp [all]
    | some x =>
      rw [all, Option.some.injEq]
      cases all rest slots with
      | error e => simp [Except.map]
      | ok row' =>
        refine ⟨fun h => ?_, fun ⟨hx, hrow⟩ => ?_⟩
        · obtain ⟨hx, hrow⟩ := Prod.mk.inj (Except.ok.inj h)
          exact ⟨hx, congrArg _ hrow⟩
        · rw [hx, Except.ok.inj hrow]
          rfl

end Slots

namespace Row

/-- A record is in an object: each of its fields occurs once, and its value can be read. -/
def Holds : (fields : List Field) → List (String × Json) → Row fields → Prop
  | [], _, _ => True
  | f :: rest, ms, (x, row) => (∃ v, Once ms f.name v ∧ f.read v = .ok x) ∧ Holds rest ms row

theorem learn_ofRow_iff (fields : List Field) (ms : List (String × Json)) (row : Row fields) :
    Slots.Learn fields ms (Slots.none fields) (Slots.ofRow fields row) ↔ Holds fields ms row := by
  induction fields with
  | nil => exact Iff.rfl
  | cons f rest ih =>
    obtain ⟨x, row⟩ := row
    exact and_congr Iff.rfl (ih row)

/-- **The record that is read from an object is the one that is in it.** -/
theorem ofMembers_eq_ok_iff {fields : List Field} (hnames : (fields.map Field.name).Nodup)
    (ms : List (String × Json)) (row : Row fields) :
    ofMembers fields ms = .ok row ↔ Holds fields ms row := by
  have hfold := Slots.foldlM_offer_eq_ok_iff hnames ms (Slots.none fields) (Slots.ofRow fields row)
  rw [← learn_ofRow_iff, ← hfold, ofMembers]
  cases hslots : ms.foldlM (fun slots (name, v) => Slots.offer fields slots name v)
      (Slots.none fields) with
  | error e => simp [bind, Except.bind]
  | ok slots => simp [bind, Except.bind, Slots.all_eq_ok_iff]

section Holds

variable {fields : List Field} {ms ms' : List (String × Json)}

theorem holds_congr (h : ∀ f ∈ fields, ∀ x, (∃ v, Once ms f.name v ∧ f.read v = .ok x) ↔
    ∃ v, Once ms' f.name v ∧ f.read v = .ok x) (row : Row fields) :
    Holds fields ms row ↔ Holds fields ms' row := by
  induction fields with
  | nil => exact Iff.rfl
  | cons f rest ih =>
    obtain ⟨x, row⟩ := row
    obtain ⟨hf, hrest⟩ := List.forall_mem_cons.mp h
    exact and_congr (hf x) (ih hrest row)

end Holds

/-! ## Records in a list -/

/-- A record is in a list: the items are its fields in their order, and can be read. -/
def Lists : (fields : List Field) → List Json → Row fields → Prop
  | [], vs, _ => vs = []
  | f :: rest, v :: vs, (x, row) => f.read v = .ok x ∧ Lists rest vs row
  | _ :: _, [], _ => False

theorem takeItems_eq_ok_iff (wanted : String) {fields : List Field} (taken : Nat)
    (vs left : List Json) (row : Row fields) :
    takeItems wanted fields taken vs = .ok (row, left) ↔
      ∃ own, vs = own ++ left ∧ Lists fields own row := by
  induction fields generalizing taken vs with
  | nil =>
    simp only [takeItems, Lists, exists_eq_right, List.nil_append, Except.ok.injEq]
    exact ⟨fun h => (Prod.mk.inj h).2, fun h => h ▸ rfl⟩
  | cons f rest ih =>
    obtain ⟨x, row⟩ := row
    cases vs with
    | nil =>
      simp only [takeItems, reduceCtorEq, false_iff, not_exists, not_and]
      intro own hown hlists
      rw [(List.append_eq_nil_iff.mp hown.symm).1] at hlists
      exact hlists
    | cons v vs =>
      have hown : (∃ own, v :: vs = own ++ left ∧ Lists (f :: rest) own (x, row)) ↔
          f.read v = .ok x ∧ ∃ own, vs = own ++ left ∧ Lists rest own row := by
        constructor
        · rintro ⟨own, hvs, hlists⟩
          cases own with
          | nil => cases hlists
          | cons w own =>
            cases hvs
            exact ⟨hlists.1, own, rfl, hlists.2⟩
        · rintro ⟨hread, own, rfl, hlists⟩
          exact ⟨v :: own, rfl, hread, hlists⟩
      rw [hown, ← ih (taken + 1), takeItems]
      cases f.read v with
      | error e => simp [bind, Except.bind]
      | ok y =>
        cases hrest : takeItems wanted rest (taken + 1) vs with
        | error e => simp [bind, Except.bind]
        | ok r =>
          obtain ⟨row', left'⟩ := r
          simp only [bind, Except.bind, Except.ok.injEq]
          constructor
          · rintro h; cases h; exact ⟨rfl, rfl⟩
          · rintro ⟨rfl, h⟩; cases h; rfl

/-- **The record that is read from a list is the one that is in it.** -/
theorem ofItems_eq_ok_iff (title : String) {fields : List Field} (vs : List Json)
    (row : Row fields) : ofItems title fields vs = .ok row ↔ Lists fields vs row := by
  have htake (wanted : String) := takeItems_eq_ok_iff wanted 0 vs [] row
  simp only [List.append_nil, exists_eq_left'] at htake
  unfold ofItems
  generalize Mismatch.counted fields.length "element" = elements
  simp only
  generalize s!"{title} with {elements}" = wanted
  rw [← htake wanted]
  cases takeItems wanted fields 0 vs with
  | error e => simp [bind, Except.bind]
  | ok r =>
    obtain ⟨row', left⟩ := r
    cases left with
    | nil => simp [bind, Except.bind]
    | cons v left => simp [bind, Except.bind]

/-- **A list of the members in order holds what the object holds.** -/
theorem lists_iff_holds {fields : List Field} {ms : List (String × Json)} {vs : List Json}
    (h : List.Forall₂ (fun f v => Once ms f.name v) fields vs) (row : Row fields) :
    Lists fields vs row ↔ Holds fields ms row := by
  induction h with
  | nil => simp [Lists, Holds]
  | cons hv _ ih =>
    obtain ⟨x, row⟩ := row
    refine and_congr ⟨fun hread => ⟨_, hv, hread⟩, fun ⟨w, hw, hread⟩ => ?_⟩ (ih row)
    rwa [hv.unique hw]

end Row

end BotFleet
