import BotFleet.Proofs.Routine.Series

/-!
# Routines of the same pace

Two routines that start at the same instant and whose clients respond alike have the same turns, up
to an instant that both have come to.

* `Series.filter_eq`: two series of the same period;
* `Releases.filter_perm`: the releases of the same movement ticks;
* **`Routine.Follows.filter_perm`**: two routines of the same pace.
-/

namespace BotFleet

theorem Clock.le_tickAt (start period n : Nat) : start ≤ tickAt start period n := by
  rw [tickAt]
  omega

section Series

variable {start period upTo upTo' t : Nat} {turns turns' : List (Nat × Turn)}

theorem Series.filter_eq_of_le (h : Series start period turns upTo)
    (h' : Series start period turns' upTo') {crashes : Bool}
    (hturns : ∀ x ∈ turns, x.2.crashes = crashes) (hturns' : ∀ x ∈ turns', x.2.crashes = crashes)
    (hle : turns.length ≤ turns'.length) (ht : t ≤ upTo) :
    (turns.map Prod.fst).filter (· < t) = (turns'.map Prod.fst).filter (· < t) := by
  obtain ⟨more, hmore⟩ := Nat.exists_eq_add_of_le hle
  rw [h.instants, h'.instants, hmore, List.range_add, List.map_append, List.filter_append,
    List.map_map]
  refine (List.append_right_eq_self.mpr ?_).symm
  rcases h.next with hnext | hnone | ⟨x, hx, hcrash⟩
  · rw [List.filter_eq_nil_iff]
    intro n hn
    obtain ⟨i, -, rfl⟩ := List.mem_map.mp hn
    have := Clock.tickAt_mono start period (Nat.le_add_right turns.length i)
    simp only [Function.comp_apply, decide_eq_true_eq]
    omega
  · -- a series that cannot start has no turns
    have hnil : turns' = [] := by
      by_contra hne
      have hstarted := (h'.regular hne).started
      rw [hnone] at hstarted
      cases hstarted
    rw [hnil, List.length_nil] at hmore
    rw [show more = 0 by omega]
    rfl
  · -- each turn of the other series crashes as well, so that it is the only one
    have hnil : turns'.dropLast = [] := by
      rw [List.eq_nil_iff_forall_not_mem]
      intro y hy
      have hquiet := h'.lasting y hy
      rw [hturns' y (turns'.dropLast_subset hy), ← hturns x hx, hcrash] at hquiet
      cases hquiet
    have hlength := congrArg List.length hnil
    rw [List.length_dropLast, List.length_nil] at hlength
    have := List.length_pos_of_mem hx
    rw [show more = 0 by omega]
    rfl

/-- **Two series of the same period have the same instants**, up to one that both have come to. -/
theorem Series.filter_eq (h : Series start period turns upTo)
    (h' : Series start period turns' upTo') {crashes : Bool}
    (hturns : ∀ x ∈ turns, x.2.crashes = crashes) (hturns' : ∀ x ∈ turns', x.2.crashes = crashes)
    (ht : t ≤ upTo) (ht' : t ≤ upTo') :
    (turns.map Prod.fst).filter (· < t) = (turns'.map Prod.fst).filter (· < t) := by
  rcases Nat.le_total turns.length turns'.length with hle | hle
  · exact h.filter_eq_of_le h' hturns hturns' hle ht
  · exact (h'.filter_eq_of_le h hturns' hturns hle ht').symm

theorem Series.start_le (h : Series start period turns upTo) : ∀ x ∈ turns, start ≤ x.1 := by
  intro x hx
  have hinstant := List.mem_map_of_mem (f := Prod.fst) hx
  rw [h.instants] at hinstant
  obtain ⟨n, -, hn⟩ := List.mem_map.mp hinstant
  exact hn ▸ Clock.le_tickAt ..

end Series

namespace Releases

variable {duration now now' t : Nat} {moves moves' releases releases' : List (Nat × Turn)}
  {pending pending' dropped dropped' : List Nat} {ended ended' : Option Nat}

theorem filter_wake (instants : List Nat) (duration t : Nat) :
    (instants.map (Clock.wake · duration)).filter (· < t) =
      ((instants.filter (· < t)).map (Clock.wake · duration)).filter (· < t) := by
  induction instants with
  | nil => rfl
  | cons n instants ih =>
    have hwake : n ≤ Clock.wake n duration := Nat.le_add_right ..
    by_cases hn : n < t
    · rw [List.filter_cons_of_pos (by simpa using hn), List.map_cons, List.map_cons,
        List.filter_cons, List.filter_cons, ih]
    · rw [List.filter_cons_of_neg (by simpa using hn), List.map_cons,
        List.filter_cons_of_neg (by simp only [decide_eq_true_eq]; omega), ih]

/-- The releases before an instant are those of the movement ticks before it. -/
theorem perm_filter (h : Releases duration moves releases pending dropped ended now)
    (ht : t ≤ ended.getD now) {engages : Bool} (hmoves : ∀ x ∈ moves, x.2.engages = engages) :
    ((releases.map Prod.fst).filter (· < t)).Perm (if engages then
      (((moves.map Prod.fst).filter (· < t)).map (Clock.wake · duration)).filter (· < t) else []) := by
  have hahead : (pending ++ dropped).filter (· < t) = [] := by
    rw [List.filter_eq_nil_iff]
    intro due hdue
    have := h.ahead due hdue
    simp only [decide_eq_true_eq]
    omega
  have hperm := h.perm.filter (fun n => decide (n < t))
  rw [List.filter_append, hahead, List.append_nil] at hperm
  refine hperm.trans (.of_eq ?_)
  cases engages with
  | false =>
    have hnone : moves.filter (·.2.engages) = [] := by
      rw [List.filter_eq_nil_iff]
      intro x hx
      rw [hmoves x hx]
      exact Bool.false_ne_true
    rw [hnone]
    rfl
  | true =>
    rw [List.filter_eq_self.mpr hmoves, if_pos rfl, ← filter_wake, List.map_map]
    rfl

theorem start_le (h : Releases duration moves releases pending dropped ended now) {start : Nat}
    (hmoves : ∀ x ∈ moves, start ≤ x.1) : ∀ x ∈ releases, start ≤ x.1 := by
  intro x hx
  have hmem := h.perm.subset (List.mem_append_left _ (List.mem_map_of_mem hx))
  obtain ⟨y, hy, hyx⟩ := List.mem_map.mp hmem
  rw [← hyx]
  exact Nat.le_trans (hmoves y (List.mem_of_mem_filter hy)) (Nat.le_add_right ..)

end Releases

namespace Routine.Follows

variable {r r' : Routine} {pace : Pace} {start now now' t : Nat}
  {turns turns' : Turn.Kind → List (Nat × Turn)} {ended ended' : Option Nat}

/-- **Two routines of the same pace have the same turns**, up to an instant that both have come
to. -/
theorem filter_perm (h : r.Follows pace start turns ended now)
    (h' : r'.Follows pace start turns' ended' now') {responses : Client.Responses}
    (hturns : ∀ k, ∀ x ∈ turns k, x.2.kind = k ∧ x.2.responses = responses)
    (hturns' : ∀ k, ∀ x ∈ turns' k, x.2.kind = k ∧ x.2.responses = responses)
    (ht : t ≤ ended.getD now) (ht' : t ≤ ended'.getD now') (k : Turn.Kind) :
    (((turns k).map Prod.fst).filter (· < t)).Perm
      (((turns' k).map Prod.fst).filter (· < t)) := by
  have hcrashes {turns : Turn.Kind → List (Nat × Turn)}
      (hturns : ∀ k, ∀ x ∈ turns k, x.2.kind = k ∧ x.2.responses = responses) (k : Turn.Kind) :
      ∀ x ∈ turns k, x.2.crashes = responses.crashes k := by
    intro x hx
    rw [Turn.crashes, (hturns k x hx).1, (hturns k x hx).2]
  have hengages {turns : Turn.Kind → List (Nat × Turn)}
      (hturns : ∀ k, ∀ x ∈ turns k, x.2.kind = k ∧ x.2.responses = responses) :
      ∀ x ∈ turns .move, x.2.engages = responses.engages := by
    intro x hx
    simp [Turn.engages, (hturns .move x hx).1, (hturns .move x hx).2]
  have hmoves := h.moving.series.filter_eq h'.moving.series (hcrashes hturns .move)
    (hcrashes hturns' .move) ht ht'
  cases k with
  | move => exact .of_eq hmoves
  | chat =>
    exact .of_eq (h.chatting.series.filter_eq h'.chatting.series (hcrashes hturns .chat)
      (hcrashes hturns' .chat) ht ht')
  | release =>
    obtain ⟨dropped, hreleases⟩ := h.releases
    obtain ⟨dropped', hreleases'⟩ := h'.releases
    have hperm := hreleases.perm_filter ht (hengages hturns)
    rw [hmoves] at hperm
    exact hperm.trans (hreleases'.perm_filter ht' (hengages hturns')).symm

theorem start_le (h : r.Follows pace start turns ended now) (k : Turn.Kind) :
    ∀ x ∈ turns k, start ≤ x.1 := by
  cases k with
  | move => exact h.moving.series.start_le
  | chat => exact h.chatting.series.start_le
  | release =>
    obtain ⟨dropped, hreleases⟩ := h.releases
    exact hreleases.start_le h.moving.series.start_le

theorem le_end (h : r.Follows pace start turns ended now) (k : Turn.Kind) :
    ∀ x ∈ turns k, x.1 ≤ ended.getD now := by
  cases k with
  | move => exact h.moving.series.le
  | chat => exact h.chatting.series.le
  | release =>
    obtain ⟨dropped, hreleases⟩ := h.releases
    exact hreleases.le

end Routine.Follows

end BotFleet
