import BotFleet.Proofs.Json.Packing
import BotFleet.Report.Summary

/-!
# The texts of a summary

A summary is printed with one item a line, and as an object without blanks elsewhere.

* `RunId.text_injective`: an identifier is told by its text;
* `Summary.Fits`, `Summary.exact_toJson`: the numbers of a summary are those of machine words;
* `Summary.toJson_injective`: a summary is told by its value;
* **`Summary.texts_faithful`**: both texts spell the value of the summary, differ by blanks only and
  lose nothing.
-/

namespace BotFleet

open Json (Exact Spelled)

/-! ## Identifiers -/

namespace RunId

theorem filter_hyphenate (groups : List Nat) {cs : List Char} (h : '-' ∉ cs) :
    (hyphenate groups cs).filter (· ≠ '-') = cs := by
  induction groups generalizing cs with
  | nil => exact List.filter_eq_self.mpr fun c hc => decide_eq_true fun he => h (he ▸ hc)
  | cons n groups ih =>
    have hall : cs.filter (· ≠ '-') = cs :=
      List.filter_eq_self.mpr fun c hc => decide_eq_true fun he => h (he ▸ hc)
    cases groups with
    | nil => exact hall
    | cons m groups =>
      have htake : (cs.take n).filter (· ≠ '-') = cs.take n :=
        List.filter_eq_self.mpr fun c hc => decide_eq_true fun he => h (he ▸ List.mem_of_mem_take hc)
      have hcut : hyphenate (n :: m :: groups) cs =
          cs.take n ++ '-' :: hyphenate (m :: groups) (cs.drop n) := rfl
      rw [hcut, List.filter_append, htake, List.filter_cons_of_neg (by simp),
        ih (fun hc => h (List.mem_of_mem_drop hc)), List.take_append_drop]

theorem hexDigit_injective :
    ∀ d d' : Fin 16, Json.hexDigit d.val = Json.hexDigit d'.val → d = d' := by
  decide

theorem hexDigit_ne_hyphen : ∀ d : Fin 16, Json.hexDigit d.val ≠ '-' := by
  decide

theorem text_injective : Function.Injective text := by
  intro id id' h
  have hdigits (id : RunId) : id.text.toList.filter (· ≠ '-') =
      id.digits.toList.map fun d => Json.hexDigit d.val := by
    rw [text, String.toList_ofList]
    refine filter_hyphenate _ fun hc => ?_
    obtain ⟨d, -, hd⟩ := List.mem_map.mp hc
    exact hexDigit_ne_hyphen d hd
  have hmap := (hdigits id).symm.trans ((congrArg _ (congrArg String.toList h)).trans (hdigits id'))
  have hlist := Function.Injective.list_map hexDigit_injective hmap
  obtain ⟨digits⟩ := id
  obtain ⟨digits'⟩ := id'
  exact congrArg RunId.mk (Vector.toList_inj.mp hlist)

end RunId

/-! ## Values -/

theorem Json.nat_injective : Function.Injective Json.nat := fun _ _ h =>
  Int.ofNat.inj (Json.int.inj h)

theorem FailureKind.name_injective : Function.Injective name := by
  intro kind kind' h
  cases kind <;> cases kind' <;> first | rfl | exact absurd h (by decide)

theorem LoginFailure.toJson_injective : Function.Injective toJson := by
  rintro ⟨kind, detail⟩ ⟨kind', detail'⟩ h
  simp only [toJson, Json.obj.injEq, List.cons.injEq, Prod.mk.injEq, Json.str.injEq, true_and,
    and_true] at h
  obtain ⟨hkind, rfl⟩ := h
  rw [FailureKind.name_injective hkind]

theorem Verdict.toJson_injective : Function.Injective toJson := by
  intro v v' h
  cases v <;> cases v' <;> simp [toJson] at h
  · rfl
  · rw [LoginFailure.toJson_injective h]

theorem LoginRecord.toJson_injective : Function.Injective toJson := by
  rintro ⟨identity, verdict⟩ ⟨identity', verdict'⟩ h
  simp only [toJson, Json.obj.injEq, List.cons.injEq, Prod.mk.injEq, Json.str.injEq, true_and,
    and_true] at h
  obtain ⟨rfl, hverdict⟩ := h
  rw [Verdict.toJson_injective hverdict]

theorem Tally.toJson_injective : Function.Injective toJson := by
  rintro ⟨_, _, _, _, _, _, _⟩ ⟨_, _, _, _, _, _, _⟩ h
  simpa only [toJson, Json.obj.injEq, List.cons.injEq, Prod.mk.injEq, true_and, and_true,
    Json.nat_injective.eq_iff, UInt64.toNat_inj, Tally.mk.injEq] using h

theorem LoginFailure.exact_toJson (f : LoginFailure) (depth : Nat) :
    Exact (depth + 1) f.toJson :=
  .obj (by simp only [List.forall_mem_cons]; exact ⟨.str _, .str _, by simp⟩)

theorem Verdict.exact_toJson (v : Verdict) (depth : Nat) : Exact (depth + 2) v.toJson := by
  cases v with
  | success => exact .obj (by simp only [List.forall_mem_cons]; exact ⟨.str _, by simp⟩)
  | failure cause =>
    exact .obj (by simp only [List.forall_mem_cons]; exact ⟨.str _, cause.exact_toJson _, by simp⟩)

theorem LoginRecord.exact_toJson (r : LoginRecord) (depth : Nat) : Exact (depth + 3) r.toJson :=
  .obj (by simp only [List.forall_mem_cons]; exact ⟨.str _, r.verdict.exact_toJson _, by simp⟩)

theorem Tally.exact_toJson (t : Tally) (depth : Nat) : Exact (depth + 1) t.toJson := by
  have hword (n : UInt64) : Exact depth (.nat n.toNat) := .nat n.toNat_lt_size
  refine .obj ?_
  simp only [List.forall_mem_cons]
  exact ⟨hword _, hword _, hword _, hword _, hword _, hword _, hword _, by simp⟩

namespace Summary

/-- The numbers of a summary are those of machine words. -/
structure Fits (s : Summary) : Prop where
  requested : s.requested < UInt64.size
  succeeded : s.succeeded < UInt64.size
  failed : s.failed < UInt64.size
  failuresByKind : ∀ p ∈ s.failuresByKind, p.2 < UInt64.size

/-- The summary of a run fits if words can count its bots and its records. -/
theorem fits_ofRecords (runId : RunId) {requested : Nat} (hrequested : requested < UInt64.size)
    {records : List LoginRecord} (hrecords : records.length < UInt64.size) (tally : Tally) :
    (ofRecords runId requested records tally).Fits where
  requested := hrequested
  succeeded := List.countP_le_length.trans_lt hrecords
  failed := (Nat.sub_le ..).trans_lt hrecords
  failuresByKind := by
    rintro ⟨kind, n⟩ hp
    obtain ⟨k, -, hk⟩ := List.mem_filterMap.mp hp
    obtain ⟨-, hn⟩ := Option.ite_none_left_eq_some.mp hk
    obtain rfl := congrArg Prod.snd (Option.some.inj hn)
    exact List.countP_le_length.trans_lt hrecords

theorem exact_toJson {s : Summary} (h : s.Fits) : Exact 5 s.toJson := by
  have hkinds : Exact 4 (.obj (s.failuresByKind.map fun p => (p.1, .nat p.2))) := by
    refine .obj fun m hm => ?_
    obtain ⟨p, hp, rfl⟩ := List.mem_map.mp hm
    exact .nat (h.failuresByKind p hp)
  have hrecords : Exact 4 (.arr (s.records.map LoginRecord.toJson)) := by
    refine .arr fun v hv => ?_
    obtain ⟨r, -, rfl⟩ := List.mem_map.mp hv
    exact r.exact_toJson 0
  refine .obj ?_
  simp only [List.forall_mem_cons]
  exact ⟨.str _, .nat h.requested, .nat h.succeeded, .nat h.failed, hkinds, s.tally.exact_toJson 3,
    hrecords, by simp⟩

/-- A summary is told by its value. -/
theorem toJson_injective : Function.Injective toJson := by
  have hkind : Function.Injective fun (p : String × Nat) => (p.1, Json.nat p.2) := by
    rintro ⟨kind, n⟩ ⟨kind', n'⟩ h
    obtain ⟨hname, hn⟩ : kind = kind' ∧ Json.nat n = Json.nat n' := Prod.mk.inj h
    rw [hname, Json.nat_injective hn]
  rintro ⟨_, _, _, _, _, _, _, _⟩ ⟨_, _, _, _, _, _, _, _⟩ h
  simpa only [toJson, Json.obj.injEq, Json.arr.injEq, Json.str.injEq, List.cons.injEq,
    Prod.mk.injEq, true_and, and_true, Json.nat_injective.eq_iff, RunId.text_injective.eq_iff,
    Tally.toJson_injective.eq_iff, hkind.list_map.eq_iff,
    LoginRecord.toJson_injective.list_map.eq_iff, Summary.mk.injEq] using h

/-! ## The law of the texts -/

/-- **The texts of a summary are faithful**, whatever the characters of its strings are.

* Both texts are JSON, and the value they spell is that of the summary and no other one.
* The text with one item a line is the one without blanks once the blanks outside of its strings are
  removed.
* Two summaries with the same text are the same. -/
theorem texts_faithful :
    (∀ s : Summary, s.Fits → ∀ v, (Spelled s.toJson.compact v ↔ v = s.toJson) ∧
      (Spelled s.toJson.pretty v ↔ v = s.toJson)) ∧
      (∀ s : Summary, Json.packed s.toJson.pretty = s.toJson.compact) ∧
      ∀ s s' : Summary, s.Fits → s'.Fits → s.toJson.compact = s'.toJson.compact → s = s' := by
  have hspelled {s : Summary} (h : s.Fits) :
      Spelled s.toJson.compact s.toJson ∧ Spelled s.toJson.pretty s.toJson :=
    ⟨(exact_toJson h).spelled_compact (by decide), (exact_toJson h).spelled_pretty (by decide)⟩
  refine ⟨fun s h v => ?_, fun s => Json.packed_pretty s.toJson, fun s s' h h' htext => ?_⟩
  · obtain ⟨hcompact, hpretty⟩ := hspelled h
    exact ⟨⟨fun hv => hv.unique hcompact, by rintro rfl; exact hcompact⟩,
      ⟨fun hv => hv.unique hpretty, by rintro rfl; exact hpretty⟩⟩
  · have hcompact := (hspelled h).1
    rw [htext] at hcompact
    exact toJson_injective (hcompact.unique (hspelled h').1)

/-- Kinds, bots and reasons that look like parts of a text, beside a run that has none. -/
theorem texts_faithful_of_awkward :
    let s : Summary := {
      runId := ⟨.replicate 32 0⟩, requested := 2, succeeded := 1, failed := 1
      failuresByKind := [("", 3), ("\": [\n\t", 4)], ascending := by decide, tally := {}
      records := [⟨"Bot \"1\"\\", .failure ⟨.kicked, "\",\x00 ]\x7b é"⟩⟩, ⟨"", .success⟩] }
    let bare := ofRecords s.runId 0 [] {}
    (s.Fits ∧ bare.Fits) ∧
      (∀ v, (Spelled s.toJson.compact v ↔ v = s.toJson) ∧
        (Spelled s.toJson.pretty v ↔ v = s.toJson)) ∧
      (∀ v, (Spelled bare.toJson.compact v ↔ v = bare.toJson) ∧
        (Spelled bare.toJson.pretty v ↔ v = bare.toJson)) ∧
      s.toJson.compact ≠ bare.toJson.compact := by
  intro s bare
  have hs : s.Fits := ⟨by decide, by decide, by decide, by decide⟩
  have hbare : bare.Fits := fits_ofRecords _ (by decide) (by decide) _
  obtain ⟨hspelled, -, htold⟩ := texts_faithful
  refine ⟨⟨hs, hbare⟩, hspelled s hs, hspelled bare hbare, fun h => ?_⟩
  have hrecords : s.records = bare.records := congrArg records (htold s bare hs hbare h)
  cases hrecords

end Summary

end BotFleet
