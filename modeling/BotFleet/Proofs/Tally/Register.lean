import Mathlib.Data.List.Induction
import Mathlib.Data.Set.Card
import BotFleet.Proofs.Tally.Effects

/-!
# Who holds a tally active

All clones of a tally share its cells, so that what is done with any of them makes up one history.
A hold on the tally has a name of its own, unless it takes the place of an older one.

* `Register.Use`, `Register.use`, `Register.run`: uses of a tally, one after the other;
* `Register.Holds`, `Register.alive`: who holds the tally after some uses, and how many do, in terms
  of the uses alone;
* **`Register.kept_run`**: the register knows who holds the tally;
* `Register.updates`, `Register.trace`, `Register.tally_run`: the single updates of the tally;
* **`Register.count_leave_le_of_prefix`**: those that give it up are never too many;
* **`Register.gauge_counts_holders`**: the law of the tally.
-/

namespace BotFleet.Register

/-! ## Uses -/

/-- What is done with a tally: something is counted, a name takes hold of it, a name lets go of it,
or all do. -/
inductive Use where
  | count (c : Counter)
  | acquire (name : String)
  | release (name : String)
  | releaseAll
deriving DecidableEq

/-- Whether a use is about the hold of a name. -/
def Use.concerns (name : String) : Use → Bool
  | .count _ => false
  | .acquire other | .release other => other = name
  | .releaseAll => true

def use (r : Register) : Use → Register
  | .count c => r.bump c
  | .acquire name => r.acquire name
  | .release name => r.release name
  | .releaseAll => r.releaseAll

/-- The register after some uses. -/
def run (r : Register) (uses : List Use) : Register := uses.foldl use r

theorem run_snoc (r : Register) (uses : List Use) (u : Use) :
    r.run (uses ++ [u]) = (r.run uses).use u :=
  List.foldl_concat ..

/-! ## Who holds the tally -/

/-- A name holds the tally if the last use that concerns it took hold. -/
def Holds (uses : List Use) (name : String) : Prop :=
  (uses.filter (·.concerns name)).getLast? = some (.acquire name)

theorem holds_snoc (uses : List Use) (u : Use) (name : String) :
    Holds (uses ++ [u]) name ↔
      if u.concerns name then u = .acquire name else Holds uses name := by
  unfold Holds
  rw [List.filter_append]
  by_cases hu : u.concerns name = true <;> simp [hu]

theorem holds_releases (uses : List Use) (names : List String) (name : String) :
    Holds (uses ++ names.map .release) name ↔ Holds uses name ∧ name ∉ names := by
  induction names using List.reverseRecOn with
  | nil => simp
  | append_singleton names other ih =>
    rw [List.map_append, ← List.append_assoc, List.map_singleton, holds_snoc, ih]
    by_cases hname : other = name
    · simp [Use.concerns, hname]
    · simp [Use.concerns, hname, Ne.symm hname]

theorem release_eq (r : Register) (name : String) :
    r.release name =
      ⟨if name ∈ r.holders then r.tally.leave else r.tally, r.holders.erase name⟩ := by
  unfold release
  split
  · rfl
  · rw [List.erase_of_not_mem ‹_›]

/-- The new hold is taken before an older one is given up. -/
theorem acquire_eq (r : Register) (name : String) :
    r.acquire name =
      ⟨if name ∈ r.holders then r.tally.enter.leave else r.tally.enter,
        name :: r.holders.erase name⟩ := by
  unfold acquire
  simp only [release_eq]

theorem releaseAll_eq (r : Register) :
    r.releaseAll = ⟨r.tally.applyAll (r.holders.map fun _ => .leave), []⟩ := by
  obtain ⟨tally, holders⟩ := r
  unfold releaseAll
  induction holders generalizing tally with
  | nil => rfl
  | cons name holders ih =>
    have hrelease :
        (⟨tally, name :: holders⟩ : Register).release name = ⟨tally.leave, holders⟩ := by
      simp [release_eq]
    rw [List.foldl_cons, hrelease]
    exact ih tally.leave

@[simp] theorem holders_release (r : Register) (name : String) :
    (r.release name).holders = r.holders.erase name :=
  congrArg holders (release_eq r name)

@[simp] theorem holders_acquire (r : Register) (name : String) :
    (r.acquire name).holders = name :: r.holders.erase name :=
  congrArg holders (acquire_eq r name)

@[simp] theorem holders_releaseAll (r : Register) : r.releaseAll.holders = [] :=
  congrArg holders (releaseAll_eq r)

/-- The register knows who holds the tally after some uses. -/
structure Kept (r : Register) (uses : List Use) : Prop where
  nodup : r.holders.Nodup
  mem_iff : ∀ name, name ∈ r.holders ↔ Holds uses name

theorem kept_start : Kept {} [] := ⟨.nil, by simp [Holds]⟩

theorem Kept.use {r : Register} {uses : List Use} (h : r.Kept uses) (u : Use) :
    (r.use u).Kept (uses ++ [u]) := by
  cases u with
  | count c =>
    refine ⟨h.nodup, fun name => (h.mem_iff name).trans ?_⟩
    simp [holds_snoc, Use.concerns]
  | acquire name =>
    have huse : (r.use (.acquire name)).holders = name :: r.holders.erase name :=
      holders_acquire r name
    refine ⟨?_, fun other => ?_⟩
    · rw [huse]
      exact List.nodup_cons.mpr ⟨h.nodup.not_mem_erase, h.nodup.erase name⟩
    · rw [huse, List.mem_cons, h.nodup.mem_erase_iff, h.mem_iff, holds_snoc]
      by_cases hname : name = other <;> simp [Use.concerns, hname, eq_comm]
  | release name =>
    have huse : (r.use (.release name)).holders = r.holders.erase name := holders_release r name
    refine ⟨huse ▸ h.nodup.erase name, fun other => ?_⟩
    rw [huse, h.nodup.mem_erase_iff, h.mem_iff, holds_snoc]
    by_cases hname : name = other <;> simp [Use.concerns, hname, eq_comm]
  | releaseAll =>
    have huse : (r.use .releaseAll).holders = [] := holders_releaseAll r
    refine ⟨huse ▸ .nil, fun other => ?_⟩
    rw [huse, holds_snoc]
    simp [Use.concerns]

/-- **The register always knows who holds the tally.** -/
theorem kept_run (uses : List Use) : (run {} uses).Kept uses := by
  induction uses using List.reverseRecOn with
  | nil => exact kept_start
  | append_singleton uses u ih =>
    rw [run_snoc]
    exact ih.use u

/-- How many hold the tally after some uses. -/
noncomputable def alive (uses : List Use) : Nat := {name | Holds uses name}.ncard

theorem Kept.alive_eq {r : Register} {uses : List Use} (h : r.Kept uses) :
    alive uses = r.holders.length := by
  have hset : {name | Holds uses name} = r.holders.toFinset := by
    ext name
    rw [List.coe_toFinset]
    exact (h.mem_iff name).symm
  rw [alive, hset, Set.ncard_coe_finset, List.toFinset_card_of_nodup h.nodup]

/-! ## Single updates -/

/-- The single updates of the tally that a use makes, in order. -/
def updates (r : Register) : Use → List Effect
  | .count c => [.count c]
  | .acquire name => .enter :: if name ∈ r.holders then [.leave] else []
  | .release name => if name ∈ r.holders then [.leave] else []
  | .releaseAll => r.holders.map fun _ => .leave

/-- The single updates that some uses make. -/
def trace : Register → List Use → List Effect
  | _, [] => []
  | r, u :: uses => r.updates u ++ trace (r.use u) uses

theorem tally_use (r : Register) (u : Use) :
    (r.use u).tally = r.tally.applyAll (r.updates u) := by
  cases u with
  | count c => rfl
  | acquire name =>
    have huse := congrArg tally (acquire_eq r name)
    by_cases hname : name ∈ r.holders <;>
      simpa [use, updates, hname, Tally.applyAll, Tally.apply] using huse
  | release name =>
    have huse := congrArg tally (release_eq r name)
    by_cases hname : name ∈ r.holders <;>
      simpa [use, updates, hname, Tally.applyAll, Tally.apply] using huse
  | releaseAll => exact congrArg tally (releaseAll_eq r)

/-- The tally is what its single updates make of it. -/
theorem tally_run (r : Register) (uses : List Use) :
    (r.run uses).tally = r.tally.applyAll (r.trace uses) := by
  induction uses generalizing r with
  | nil => rfl
  | cons u uses ih =>
    have hcons : r.run (u :: uses) = (r.use u).run uses := rfl
    rw [hcons, ih, tally_use, trace, Tally.applyAll, Tally.applyAll, Tally.applyAll,
      List.foldl_append]

theorem count_updates (r : Register) (u : Use) (c : Counter) :
    (r.updates u).count (.count c) = [u].count (.count c) := by
  cases u with
  | count c' => by_cases hc : c' = c <;> simp [updates, hc]
  | acquire name | release name => by_cases hname : name ∈ r.holders <;> simp [updates, hname]
  | releaseAll => simp [updates, List.count_eq_zero]

theorem count_trace (r : Register) (uses : List Use) (c : Counter) :
    (r.trace uses).count (.count c) = uses.count (.count c) := by
  induction uses generalizing r with
  | nil => rfl
  | cons u uses ih =>
    rw [trace, List.count_append, count_updates, ih, ← List.count_append, List.singleton_append]

theorem count_leave_le (r : Register) (u : Use) :
    (r.updates u).count .leave ≤ r.holders.length := by
  cases u with
  | count c => exact Nat.zero_le _
  | acquire name | release name =>
    by_cases hname : name ∈ r.holders
    · simpa [updates, hname] using Nat.succ_le_of_lt (List.length_pos_of_mem hname)
    · simp [updates, hname]
  | releaseAll => simp [updates]

theorem length_use (r : Register) (u : Use) :
    (r.use u).holders.length + (r.updates u).count .leave =
      r.holders.length + (r.updates u).count .enter := by
  have herase {name : String} (hname : name ∈ r.holders) :
      (r.holders.erase name).length + 1 = r.holders.length := by
    rw [List.length_erase_of_mem hname]
    exact Nat.sub_add_cancel (List.length_pos_of_mem hname)
  cases u with
  | count c => rfl
  | acquire name =>
    by_cases hname : name ∈ r.holders
    · simpa [use, updates, hname] using herase hname
    · simp [use, updates, hname, List.erase_of_not_mem]
  | release name =>
    by_cases hname : name ∈ r.holders
    · simpa [use, updates, hname] using herase hname
    · simp [use, updates, hname, List.erase_of_not_mem]
  | releaseAll => simp [use, updates, List.count_eq_zero]

theorem length_run (r : Register) (uses : List Use) :
    (r.run uses).holders.length + (r.trace uses).count .leave =
      r.holders.length + (r.trace uses).count .enter := by
  induction uses generalizing r with
  | nil => rfl
  | cons u uses ih =>
    have hcons : r.run (u :: uses) = (r.use u).run uses := rfl
    have huse := length_use r u
    have hrun := ih (r.use u)
    rw [hcons, trace, List.count_append, List.count_append]
    omega

/-- **There is never an update too many that gives the tally up.** -/
theorem count_leave_le_of_prefix (r : Register) (uses : List Use) {es : List Effect}
    (h : es <+: r.trace uses) : es.count .leave ≤ r.holders.length + es.count .enter := by
  induction uses generalizing r es with
  | nil =>
    rw [List.prefix_nil.mp h]
    exact Nat.zero_le _
  | cons u uses ih =>
    rw [trace] at h
    obtain hwithin | ⟨later, rfl⟩ := List.prefix_or_prefix_of_prefix h (List.prefix_append ..)
    · exact (hwithin.sublist.count_le _).trans ((count_leave_le r u).trans (Nat.le_add_right ..))
    · have huse := length_use r u
      have hlater := ih (r.use u) ((List.prefix_append_right_inj _).mp h)
      rw [List.count_append, List.count_append]
      omega

/-! ## The law of the tally -/

theorem active_of_count {es : List Effect} {n : Nat} (h : n + es.count .leave = es.count .enter) :
    (Tally.zero.applyAll es).active = UInt64.ofNat n := by
  have hactive := Tally.active_applyAll Tally.zero es
  rw [← h, UInt64.ofNat_add] at hactive
  exact (UInt64.add_left_inj _).mp (hactive.trans (UInt64.zero_add _))

theorem active_run (uses : List Use) :
    (run {} uses).tally.active = UInt64.ofNat (alive uses) := by
  have hlength := length_run {} uses
  rw [tally_run, (kept_run uses).alive_eq]
  exact active_of_count (hlength.trans (Nat.zero_add _))

theorem get_run (uses : List Use) (c : Counter) :
    (run {} uses).tally.get c = UInt64.ofNat (uses.count (.count c)) := by
  rw [tally_run, Tally.get_applyAll, count_trace]
  cases c <;> exact UInt64.zero_add _

theorem alive_released {uses : List Use} {names : List String}
    (h : ∀ name, Holds uses name → name ∈ names) : alive (uses ++ names.map .release) = 0 := by
  have hnone : {name | Holds (uses ++ names.map .release) name} = ∅ := by
    refine Set.eq_empty_of_forall_notMem fun name hholds => ?_
    obtain ⟨hname, hnot⟩ := (holds_releases uses names name).mp hholds
    exact hnot (h name hname)
  rw [alive, hnone, Set.ncard_empty]

/-- **The tally shows who holds it active, and how often each thing was counted**, whatever it is
used for and in whatever order:

* the number of active sessions is that of the names whose last use took hold, and it is zero once
  all of them have let go;
* a counter is the number of its own increments, as far as 64 bits go;
* the tally changes by single updates, of which those that give it up are never too many, not even
  while a new hold takes the place of an older one;
* the line and the object show these numbers. -/
theorem gauge_counts_holders (uses : List Use) :
    let t := (run {} uses).tally
    let updates := trace {} uses
    let n (c : Counter) := uses.count (.count c) % 2 ^ 64
    let held := alive uses % 2 ^ 64
    (t.active = UInt64.ofNat (alive uses) ∧ (alive uses < 2 ^ 64 → t.active.toNat = alive uses) ∧
        ∀ names : List String, (∀ name, Holds uses name → name ∈ names) →
          (run {} (uses ++ names.map .release)).tally.active = 0) ∧
      (∀ c, (t.get c).toNat = n c) ∧
      (t = Tally.zero.applyAll updates ∧ ∀ es, es <+: updates →
        es.count .leave ≤ es.count .enter ∧
          (Tally.zero.applyAll es).active = UInt64.ofNat (es.count .enter - es.count .leave)) ∧
      t.line = s!"active={held} started={n .started} logged_in={n .logins} failed={n .failures} " ++
        s!"ended_after_login={n .endedAfterLogin} moves={n .moves} chats={n .chats}" ∧
      t.toJson = .obj [
        ("sessionsStarted", .nat (n .started)),
        ("logins", .nat (n .logins)),
        ("loginFailures", .nat (n .failures)),
        ("terminatedAfterLogin", .nat (n .endedAfterLogin)),
        ("moves", .nat (n .moves)),
        ("chats", .nat (n .chats)),
        ("sessionsActive", .nat held)] := by
  intro t updates n held
  have hactive : t.active = UInt64.ofNat (alive uses) := active_run uses
  have hshown : t.active.toNat = held := by
    rw [hactive]
    exact UInt64.toNat_ofNat'
  have hcounted (c : Counter) : (t.get c).toNat = n c := by
    rw [get_run]
    exact UInt64.toNat_ofNat'
  refine ⟨⟨hactive, fun hfew => hshown.trans (Nat.mod_eq_of_lt hfew), fun names hnames => ?_⟩,
    hcounted, ⟨tally_run {} uses, fun es hes => ?_⟩, ?_, ?_⟩
  · rw [active_run, alive_released hnames]
    rfl
  · have hle := count_leave_le_of_prefix {} uses hes
    rw [List.length_nil, Nat.zero_add] at hle
    exact ⟨hle, active_of_count (Nat.sub_add_cancel hle)⟩
  · simp only [← hshown, ← hcounted]
    rfl
  · simp only [← hshown, ← hcounted]
    rfl

/-- A hold that is taken again counts once, as soon as the older one is given up. -/
theorem gauge_counts_holders_again :
    let uses : List Use := [.acquire "Bot1", .acquire "Bot2", .count .logins, .acquire "Bot1"]
    let es : List Effect := [.enter, .enter, .count .logins, .enter]
    (alive uses = 2 ∧ (run {} uses).tally.active.toNat = alive uses) ∧
      ((∀ name, Holds uses name → name ∈ ["Bot2", "Bot1"]) ∧
        (run {} (uses ++ ["Bot2", "Bot1"].map .release)).tally.active = 0) ∧
      es <+: trace {} uses ∧ (Tally.zero.applyAll es).active = 3 := by
  intro uses es
  have hholders : (run {} uses).holders = ["Bot1", "Bot2"] := by decide
  have halive : alive uses = 2 := by rw [(kept_run uses).alive_eq, hholders]; rfl
  have hnames : ∀ name, Holds uses name → name ∈ ["Bot2", "Bot1"] := fun name hname => by
    have hmem := ((kept_run uses).mem_iff name).mpr hname
    rw [hholders] at hmem
    simpa [or_comm] using hmem
  have hes : es <+: trace {} uses := by decide
  obtain ⟨⟨-, hexact, hreleased⟩, -, ⟨-, hupdates⟩, -⟩ := gauge_counts_holders uses
  exact ⟨⟨halive, hexact (by omega)⟩, ⟨hnames, hreleased _ hnames⟩, hes, (hupdates es hes).2⟩

end BotFleet.Register
