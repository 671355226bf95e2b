import BotFleet.Proofs.Routine.Step

/-!
# A routine comes to rest

* `Activity.burden`, `Routine.burden`: the most that can still be done at an instant;
* **`Routine.Stepped.burden`**: every step that can be done lowers it;
* `Routine.ready_of_firstReady`, `Routine.not_ready_of_firstReady`: the schedule overlooks nothing;
* `Routine.wait_pos`: at rest all that is due lies ahead.
-/

namespace BotFleet

theorem Clock.lt_wake (now : Nat) {duration : Nat} (h : 0 < duration) :
    now < Clock.wake now duration := by
  have hlong : 0 < Clock.longestSleep := by decide
  exact Nat.lt_add_of_pos_right (Nat.lt_min.mpr ⟨h, hlong⟩)

/-- The most that an activity can still do at an instant: a tick if one is due, and it may be stopped
in the end. -/
def Activity.burden (tick now : Nat) : Activity → Nat
  | .running t => if t.due ≤ now then tick else 1
  | _ => 0

theorem Activity.burden_advance (tick now : Nat) (t : Ticker) :
    (Activity.running (t.advance now)).burden tick now = 1 :=
  if_neg (Nat.not_le_of_lt (Clock.lt_wake now t.period_pos))

theorem Activity.burden_start_le (tick now period : Nat) :
    (Activity.start now period).burden tick now ≤ 1 := by
  unfold Activity.start Ticker.start?
  split
  · rename_i t ht
    split at ht
    · rename_i h
      cases ht
      exact Nat.le_of_eq (if_neg (Nat.not_le_of_lt (Nat.lt_add_of_pos_right h.1)))
    · cases ht
  · exact Nat.zero_le 1

namespace Routine

/-- The most that can still be done at an instant. A movement tick may bring a release, and each
activity may be stopped in the end. -/
def burden (r : Routine) (now : Nat) : Nat :=
  r.moving.burden 3 now + r.chatting.burden 2 now + r.releases.length

theorem burden_attach_le (pace : Pace) (now : Nat) : (attach pace now).burden now ≤ 2 := by
  have hmove := Activity.burden_start_le 3 now pace.moveInterval
  have hchat := Activity.burden_start_le 2 now pace.chatInterval
  have hburden : (attach pace now).burden now = (Activity.start now pace.moveInterval).burden 3 now +
      (Activity.start now pace.chatInterval).burden 2 now + 0 := rfl
  omega

theorem burden_le_stepsEnough (r : Routine) (now : Nat) : r.burden now ≤ r.stepsEnough + 1 := by
  have hle (tick : Nat) (a : Activity) (ht : 1 ≤ tick) : a.burden tick now ≤ tick := by
    unfold Activity.burden
    split
    · split <;> omega
    · exact Nat.zero_le tick
  have hmove := hle 3 r.moving (by decide)
  have hchat := hle 2 r.chatting (by decide)
  unfold burden stepsEnough
  omega

variable {r r' : Routine} {c : Situation} {task : Task} {es : List Effect}

/-- **Every step that can be done lowers what can still be done.** -/
theorem Stepped.burden (h : Stepped r c task r' es) : r'.burden c.now < r.burden c.now := by
  have hstop (tick : Nat) (ht : 0 < tick) (t : Ticker) :
      0 < (Activity.running t).burden tick c.now := by
    show 0 < if t.due ≤ c.now then tick else 1
    split
    · exact ht
    · exact Nat.one_pos
  unfold Routine.burden
  cases h with
  | stoppedMoving t hm =>
    have hpos := hstop 3 (by decide) t
    have hzero : Activity.stopped.burden 3 c.now = 0 := rfl
    rw [hm, hzero]
    simp only
    omega
  | stoppedChatting t hm =>
    have hpos := hstop 2 (by decide) t
    have hzero : Activity.stopped.burden 2 c.now = 0 := rfl
    rw [hm, hzero]
    simp only
    omega
  | moved t moving releases _ hm _ hdue hmoving hreleases =>
    have hbefore : (Activity.running t).burden 3 c.now = 3 := if_pos hdue
    have hafter : moving.burden 3 c.now ≤ 1 := by
      rcases hmoving with rfl | rfl
      · exact Nat.le_of_eq (Activity.burden_advance ..)
      · exact Nat.zero_le 1
    have hlength : releases.length ≤ r.releases.length + 1 := by
      rcases hreleases with rfl | rfl <;> simp
    rw [hm]
    simp only
    omega
  | chatted t chatting _ hm _ hdue hchatting =>
    have hbefore : (Activity.running t).burden 2 c.now = 2 := if_pos hdue
    have hafter : chatting.burden 2 c.now ≤ 1 := by
      rcases hchatting with rfl | rfl
      · exact Nat.le_of_eq (Activity.burden_advance ..)
      · exact Nat.zero_le 1
    rw [hm]
    simp only
    omega
  | dropped i due hi | released i due _ hi =>
    have hlt := (List.getElem?_eq_some_iff.mp hi).1
    have hlength := List.length_eraseIdx_of_lt hlt
    simp only
    omega

/-! ## The schedule -/

theorem ready_of_firstReady (h : r.firstReady c = some task) : r.ready c task = true := by
  unfold firstReady at h
  split at h
  · cases h; assumption
  split at h
  · cases h; assumption
  obtain ⟨i, hi, rfl⟩ := Option.map_eq_some_iff.mp h
  obtain ⟨hlt, hfind⟩ := List.findIdx?_eq_some_iff_findIdx_eq.mp hi
  have hdue := List.findIdx_getElem (w := hfind ▸ hlt)
  simp only [hfind] at hdue
  rw [ready, List.getElem?_eq_getElem hlt]
  exact hdue

theorem not_ready_of_firstReady (h : r.firstReady c = none) (task : Task) :
    r.ready c task = false := by
  unfold firstReady at h
  split at h
  · cases h
  split at h
  · cases h
  rename_i hmove hchat
  cases task with
  | move => exact Bool.not_eq_true _ ▸ hmove
  | chat => exact Bool.not_eq_true _ ▸ hchat
  | release i =>
    have hnone := List.findIdx?_eq_none_iff.mp (Option.map_eq_none_iff.mp h)
    cases hi : r.releases[i]? with
    | none => rw [ready, hi]
    | some due => rw [ready, hi]; exact hnone due (List.mem_of_getElem? hi)

/-! ## Waiting -/

theorem lt_of_not_activityReady {a : Activity} (h : activityReady c a = false) {due : Nat}
    (hdue : a.due? = some due) : c.now < due := by
  cases a with
  | running t =>
    cases hdue
    rw [activityReady, Bool.or_eq_false_iff] at h
    simpa using h.2
  | _ => cases hdue

theorem wait_pos (h : ∀ task, r.ready c task = false) {d : Nat} (hd : r.wait? c.now = some d) :
    0 < d := by
  obtain ⟨due, hdue, rfl⟩ := List.mem_map.mp (List.min?_mem hd)
  refine Nat.sub_pos_of_lt ?_
  rcases List.mem_append.mp hdue with hdue | hrelease
  · rcases List.mem_append.mp hdue with hmove | hchat
    · exact lt_of_not_activityReady (h .move) (Option.mem_toList.mp hmove)
    · exact lt_of_not_activityReady (h .chat) (Option.mem_toList.mp hchat)
  · obtain ⟨i, hi⟩ := List.mem_iff_getElem?.mp hrelease
    have hready := h (.release i)
    rw [ready, hi] at hready
    simpa using (Bool.or_eq_false_iff.mp hready).2

end Routine

end BotFleet
