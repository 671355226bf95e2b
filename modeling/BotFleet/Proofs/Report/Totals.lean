import Mathlib.Algebra.GroupWithZero.Nat
import Mathlib.Data.List.Induction
import Mathlib.Data.String.Basic
import BotFleet.Report.Summary

/-!
# The totals of a list of records

* `Totals`, `Totals.add`: the totals as they are taken in one pass over the records, with a row of
  kinds in which a failure is entered or counted up;
* **`occurring_succ`**: one more failure enters its kind or counts it up, and moves nothing;
* **`totals_eq`**: one pass over the records comes to the totals of their summary;
* **`totals_partition`**: the totals of a summary partition its records.
-/

namespace BotFleet

namespace Summary

/-! ## One pass over the records -/

/-- Enter a failure into a row of kinds in order, or count it up there. -/
def enter (kind : String) : List (String × Nat) → List (String × Nat)
  | [] => [(kind, 1)]
  | (k, n) :: row =>
    if kind = k then (k, n + 1) :: row
    else if kind < k then (kind, 1) :: (k, n) :: row
    else (k, n) :: enter kind row

/-- The totals of the records passed so far. -/
structure Totals where
  succeeded : Nat := 0
  failures : List (String × Nat) := []

/-- Pass one record. -/
def Totals.add (t : Totals) (r : LoginRecord) : Totals :=
  match r.verdict with
  | .success => { t with succeeded := t.succeeded + 1 }
  | .failure cause => { t with failures := enter cause.kind.name t.failures }

/-- The totals of some records, from the first to the last. -/
def totals (records : List LoginRecord) : Totals := records.foldl .add {}

theorem totals_concat (records : List LoginRecord) (r : LoginRecord) :
    totals (records ++ [r]) = (totals records).add r :=
  List.foldl_concat ..

/-! ## The kinds that occur -/

section Occurring

variable {kinds : List String} {number : String → Nat} {kind : String}

theorem occurring_cons_of_zero (h : number kind = 0) :
    occurring (kind :: kinds) number = occurring kinds number := by
  rw [occurring, List.filterMap_cons, if_pos h]
  rfl

theorem occurring_cons_of_pos (h : number kind ≠ 0) :
    occurring (kind :: kinds) number = (kind, number kind) :: occurring kinds number := by
  rw [occurring, List.filterMap_cons, if_neg h]
  rfl

theorem mem_occurring {n : Nat} :
    (kind, n) ∈ occurring kinds number ↔ kind ∈ kinds ∧ n = number kind ∧ 0 < n := by
  simp only [occurring, List.mem_filterMap, Option.ite_none_left_eq_some, Option.some.injEq,
    Prod.mk.injEq]
  constructor
  · rintro ⟨k, hk, hne, rfl, rfl⟩
    exact ⟨hk, rfl, Nat.pos_of_ne_zero hne⟩
  · rintro ⟨hk, rfl, hpos⟩
    exact ⟨kind, hk, hpos.ne', rfl, rfl⟩

theorem enter_of_lt {row : List (String × Nat)} (h : ∀ p ∈ row, kind < p.1) :
    enter kind row = (kind, 1) :: row := by
  cases row with
  | nil => rfl
  | cons p row =>
    have hp := h p List.mem_cons_self
    have hne : kind ≠ p.1 := fun he => lt_irrefl _ (he ▸ hp)
    rw [enter, if_neg hne, if_pos hp]

/-- **One more failure enters its kind or counts it up**, and moves nothing. -/
theorem occurring_succ (hsorted : kinds.Pairwise (· < ·)) (hkind : kind ∈ kinds) :
    occurring kinds (Function.update number kind (number kind + 1)) =
      enter kind (occurring kinds number) := by
  induction kinds with
  | nil => cases hkind
  | cons k kinds ih =>
    obtain ⟨hlt, hsorted⟩ := List.pairwise_cons.mp hsorted
    by_cases heq : kind = k
    · -- the kinds behind it keep their numbers
      subst heq
      have htail : occurring kinds (Function.update number kind (number kind + 1)) =
          occurring kinds number := by
        refine List.filterMap_congr fun k hk => ?_
        have hne : k ≠ kind := fun he => lt_irrefl _ (he ▸ hlt k hk)
        rw [Function.update_of_ne hne]
      rw [occurring_cons_of_pos (by simp), Function.update_self, htail]
      by_cases hzero : number kind = 0
      · rw [occurring_cons_of_zero hzero, hzero, enter_of_lt]
        rintro ⟨k, n⟩ hp
        exact hlt k (mem_occurring.mp hp).1
      · rw [occurring_cons_of_pos hzero, enter, if_pos rfl]
    · have hmem : kind ∈ kinds := (List.mem_cons.mp hkind).resolve_left heq
      have hk : Function.update number kind (number kind + 1) k = number k :=
        Function.update_of_ne (Ne.symm heq) ..
      by_cases hzero : number k = 0
      · rw [occurring_cons_of_zero (hk.trans hzero), occurring_cons_of_zero hzero,
          ih hsorted hmem]
      · rw [occurring_cons_of_pos (hk ▸ hzero), occurring_cons_of_pos hzero, hk, enter,
          if_neg heq, if_neg (hlt kind hmem).asymm, ih hsorted hmem]

end Occurring

/-! ## The loop -/

theorem failuresOf_concat (records : List LoginRecord) (r : LoginRecord) (kind : String) :
    failuresOf (records ++ [r]) kind =
      failuresOf records kind +
        if r.verdict.kind?.map FailureKind.name = some kind then 1 else 0 := by
  simp [failuresOf, List.countP_append, List.countP_singleton]

theorem countKinds_concat (records : List LoginRecord) (r : LoginRecord) :
    countKinds (records ++ [r]) =
      match r.verdict with
      | .success => countKinds records
      | .failure cause => enter cause.kind.name (countKinds records) := by
  have hsucc := failuresOf_concat records r
  unfold countKinds
  cases hv : r.verdict with
  | success =>
    refine congrArg _ (funext fun kind => ?_)
    rw [hsucc, hv]
    rfl
  | failure cause =>
    refine Eq.trans ?_ (occurring_succ FailureKind.ascending_names cause.kind.name_mem_names)
    refine congrArg _ (funext fun kind => ?_)
    rw [hsucc, hv, Verdict.kind?]
    by_cases hk : cause.kind.name = kind
    · subst hk
      simp
    · simp [hk, Function.update_of_ne (Ne.symm hk)]

/-- **One pass over the records comes to the totals of their summary.** -/
theorem totals_eq (records : List LoginRecord) :
    totals records =
      { succeeded := records.countP (·.verdict.isSuccess), failures := countKinds records } := by
  induction records using List.reverseRecOn with
  | nil => rfl
  | append_singleton records r ih =>
    rw [totals_concat, ih, countKinds_concat, List.countP_append, List.countP_singleton,
      Totals.add]
    cases r.verdict <;> rfl

theorem sum_enter (kind : String) (row : List (String × Nat)) :
    ((enter kind row).map Prod.snd).sum = (row.map Prod.snd).sum + 1 := by
  induction row with
  | nil => rfl
  | cons p row ih =>
    obtain ⟨k, n⟩ := p
    rw [enter]
    split_ifs
    · simp only [List.map_cons, List.sum_cons]
      omega
    · simp only [List.map_cons, List.sum_cons]
      omega
    · simp only [List.map_cons, List.sum_cons, ih]
      omega

/-- Each record is counted once: as a success, or under the kind of its failure. -/
theorem totals_length (records : List LoginRecord) :
    (totals records).succeeded + ((totals records).failures.map Prod.snd).sum = records.length := by
  induction records using List.reverseRecOn with
  | nil => rfl
  | append_singleton records r ih =>
    rw [totals_concat, List.length_append, List.length_singleton, ← ih, Totals.add]
    cases r.verdict with
    | success => exact Nat.add_right_comm ..
    | failure cause => rw [sum_enter]; rfl

/-! ## Totals of several lists -/

/-- The number of failures of a kind according to a summary. -/
def count (s : Summary) (kind : String) : Nat := (s.failuresByKind.lookup kind).getD 0

theorem lookup_occurring {kinds : List String} {number : String → Nat} {kind : String}
    (hkind : 0 < number kind → kind ∈ kinds) :
    ((occurring kinds number).lookup kind).getD 0 = number kind := by
  by_cases hzero : number kind = 0
  · have hnone : (occurring kinds number).lookup kind = none := by
      refine List.lookup_eq_none_iff.mpr fun p hp => ?_
      obtain ⟨-, hn, hpos⟩ := mem_occurring.mp hp
      have hne : kind ≠ p.1 := fun he => hpos.ne' (hn.trans (he ▸ hzero))
      simpa using hne
    rw [hnone, hzero]
    rfl
  · have hmem := hkind (Nat.pos_of_ne_zero hzero)
    clear hkind
    induction kinds with
    | nil => cases hmem
    | cons k kinds ih =>
      by_cases heq : kind = k
      · subst heq
        rw [occurring_cons_of_pos hzero, List.lookup_cons_self]
        rfl
      · have hlater := ih ((List.mem_cons.mp hmem).resolve_left heq)
        by_cases hk : number k = 0
        · rw [occurring_cons_of_zero hk, hlater]
        · rw [occurring_cons_of_pos hk, List.lookup_cons, beq_false_of_ne heq, hlater]

theorem mem_names_of_failuresOf {records : List LoginRecord} {kind : String}
    (h : 0 < failuresOf records kind) : kind ∈ FailureKind.names := by
  obtain ⟨r, -, hr⟩ := List.countP_pos_iff.mp h
  obtain ⟨k, -, rfl⟩ := Option.map_eq_some_iff.mp (of_decide_eq_true hr)
  exact k.name_mem_names

theorem count_ofRecords (runId : RunId) (requested : Nat) (records : List LoginRecord)
    (tally : Tally) (kind : String) :
    (ofRecords runId requested records tally).count kind = failuresOf records kind :=
  lookup_occurring mem_names_of_failuresOf

theorem failed_ofRecords (runId : RunId) (requested : Nat) (records : List LoginRecord)
    (tally : Tally) :
    (ofRecords runId requested records tally).failed =
      records.countP fun r => !r.verdict.isSuccess := by
  have hsplit := List.length_eq_countP_add_countP (fun r : LoginRecord => r.verdict.isSuccess)
    (l := records)
  simp only [Bool.not_eq_true, Bool.decide_eq_false] at hsplit
  rw [ofRecords, hsplit, Nat.add_sub_cancel_left]

/-! ## The law of the totals -/

/-- **The totals of a summary partition its records.** They are those of one pass over the records,
and

* the successes are the records of a success, and the failures are the others;
* the kinds are those that occur, each with the number of its occurrences, in ascending order of
  their names, and the numbers sum up to that of the failures;
* the identifier, the number of bots, the tally and the records are carried over;
* no total depends on the order of the records;
* two lists of records have, one after the other, the sums of their totals. -/
theorem totals_partition (runId : RunId) (requested : Nat) (records : List LoginRecord)
    (tally : Tally) :
    let summed (records : List LoginRecord) := ofRecords runId requested records tally
    let s := summed records
    (s.succeeded = (totals records).succeeded ∧ s.failuresByKind = (totals records).failures) ∧
      (s.succeeded = (records.countP fun r => r.verdict.isSuccess) ∧
        s.failed = (records.countP fun r => !r.verdict.isSuccess) ∧
        s.succeeded ≤ records.length ∧ s.failed = records.length - s.succeeded) ∧
      (∀ kind n, (kind, n) ∈ s.failuresByKind ↔ n = failuresOf records kind ∧ 0 < n) ∧
      (s.failuresByKind.map (·.1)).Pairwise (· < ·) ∧
      (s.failuresByKind.map (·.2)).sum = s.failed ∧
      (s.runId = runId ∧ s.requested = requested ∧ s.tally = tally ∧ s.records = records) ∧
      (∀ shuffled, records.Perm shuffled → (summed shuffled).succeeded = s.succeeded ∧
        (summed shuffled).failed = s.failed ∧ (summed shuffled).failuresByKind = s.failuresByKind) ∧
      (∀ more, (summed (records ++ more)).succeeded = s.succeeded + (summed more).succeeded ∧
        (summed (records ++ more)).failed = s.failed + (summed more).failed ∧
        ∀ kind, (summed (records ++ more)).count kind = s.count kind + (summed more).count kind) := by
  intro summed s
  have htotals := totals_eq records
  have hfailed (records) : (summed records).failed = records.countP fun r => !r.verdict.isSuccess :=
    failed_ofRecords runId requested records tally
  have hcount (records) (kind) : (summed records).count kind = failuresOf records kind :=
    count_ofRecords runId requested records tally kind
  refine ⟨by rw [htotals]; exact ⟨rfl, rfl⟩,
    ⟨rfl, hfailed records, List.countP_le_length, rfl⟩,
    fun kind n => ?_, List.pairwise_map.mpr s.ascending, ?_, ⟨rfl, rfl, rfl, rfl⟩,
    fun shuffled hperm => ⟨(hperm.countP_eq _).symm, ?_, ?_⟩, fun more => ⟨?_, ?_, fun kind => ?_⟩⟩
  · refine mem_occurring.trans (and_iff_right_of_imp ?_)
    rintro ⟨rfl, hpos⟩
    exact mem_names_of_failuresOf hpos
  · have hlength := totals_length records
    rw [htotals] at hlength
    exact Nat.eq_sub_of_add_eq' hlength
  · rw [hfailed, hfailed]
    exact (hperm.countP_eq _).symm
  · refine congrArg (occurring FailureKind.names) (funext fun kind => ?_)
    exact (hperm.countP_eq _).symm
  · exact List.countP_append
  · rw [hfailed, hfailed, hfailed]
    exact List.countP_append
  · rw [hcount, hcount, hcount]
    exact List.countP_append

end Summary

end BotFleet
