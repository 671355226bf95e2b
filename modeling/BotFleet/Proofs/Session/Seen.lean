import BotFleet.Proofs.Session.Work

/-!
# What a session has seen

* `Session.Tracks`: what a session has seen, and where it stands in its script;
* **`Session.Tracks.work`**: a step of the work keeps up with what it sees;
* `Session.Tracks.report`, `Session.Tracks.routine`: the other steps see nothing;
* `Session.Tracks.prefix_occurrences`: what is seen comes from the script in its order, but for a
  request to stop at the end.
-/

namespace BotFleet

/-- While nothing final is seen, a login can only have succeeded. -/
theorem firstVerdict_of_open {seen : List Occurrence} (h : ∀ o ∈ seen, o.isFinal = false)
    {v : Verdict} (hv : firstVerdict seen = some v) : v = .success := by
  obtain ⟨o, ho, hov⟩ := List.exists_of_findSome?_eq_some hv
  have hopen := h o ho
  cases v with
  | success => rfl
  | failure cause => rw [Occurrence.isFinal_of_failure hov] at hopen; cases hopen

namespace Session

/-- What a session has seen, in terms of its script: nothing before its client is connected; then all
that its script brings about, up to what is still on its way; and in the end something final, which
is a request to stop or comes from the script. -/
def Tracks (s : Session) (seen : List Occurrence) : Prop :=
  match s.phase with
  | .fresh | .connecting _ => seen = [] ∧ s.inbox = []
  | .running =>
    seen ++ (s.inbox ++ s.feed.map Prod.snd).map .report = s.script.occurrences ∧
      (∀ o ∈ seen, o.isFinal = false) ∧ s.feed.Pairwise fun r r' => r.1 ≤ r'.1
  | .finished | .crashed _ =>
    ∃ before o rest, seen = before ++ [o] ∧ o.isFinal = true ∧
      (before ++ o :: rest = s.script.occurrences ∨
        o = .stop ∧ s.stopping = true ∧ before ++ rest = s.script.occurrences)

section Tracks

variable {s : Session} {seen : List Occurrence}

theorem Tracks.fresh (h : s.Tracks seen) (hp : s.phase = .fresh) : seen = [] ∧ s.inbox = [] := by
  unfold Tracks at h; rwa [hp] at h

theorem Tracks.connecting (h : s.Tracks seen) {due : Option Nat} (hp : s.phase = .connecting due) :
    seen = [] ∧ s.inbox = [] := by
  unfold Tracks at h; rwa [hp] at h

theorem Tracks.running (h : s.Tracks seen) (hp : s.phase = .running) :
    seen ++ (s.inbox ++ s.feed.map Prod.snd).map .report = s.script.occurrences ∧
      (∀ o ∈ seen, o.isFinal = false) ∧ s.feed.Pairwise fun r r' => r.1 ≤ r'.1 := by
  unfold Tracks at h; rwa [hp] at h

theorem tracks_stopped {s' : Session} (hp : s'.phase = .finished) (hseen : seen = [])
    (hs : s'.stopping = true) : s'.Tracks (seen ++ [.stop]) := by
  unfold Tracks
  rw [hp, hseen]
  exact ⟨[], .stop, s'.script.occurrences, rfl, rfl, .inr ⟨rfl, hs, rfl⟩⟩

theorem Tracks.look (h : s.Tracks seen) (hp : s.phase = .running) {r : Report} {rest : List Report}
    (hi : s.inbox = r :: rest) (hr : (Occurrence.report r).isFinal = false) {s' : Session}
    (hp' : s'.phase = .running) (hi' : s'.inbox = rest) (hf' : s'.feed = s.feed)
    (hscript : s'.script = s.script) : s'.Tracks (seen ++ [.report r]) := by
  obtain ⟨hall, hopen, hsorted⟩ := h.running hp
  unfold Tracks
  rw [hp', hi', hf', hscript]
  refine ⟨?_, ?_, hsorted⟩
  · rw [← hall, hi, List.append_assoc]
    rfl
  · intro o ho
    rcases List.mem_append.mp ho with ho | ho
    · exact hopen o ho
    · rw [List.mem_singleton.mp ho]
      exact hr

/-- **A step of the work keeps up with what it sees.** -/
theorem Tracks.work {s' : Session} {o? : Option Occurrence} {es : List Effect} (h : s.Tracks seen)
    (hw : Worked s o? s' es) : s'.Tracks (seen ++ o?.toList) := by
  cases hw with
  | idle _ => simpa using h
  | begun hp _ =>
    obtain ⟨hseen, hinbox⟩ := h.fresh hp
    exact ⟨by rw [hseen]; rfl, hinbox⟩
  | stoppedEarly _ hp hs _ => exact tracks_stopped rfl (h.fresh hp).1 hs
  | stopped _ _ hp hs _ => exact tracks_stopped rfl (h.connecting hp).1 hs
  | refused _ _ f _ hp _ ho _ =>
    refine ⟨[], _, [], by rw [(h.connecting hp).1]; rfl, rfl, .inl ?_⟩
    simp [fail, Script.occurrences, ho]
  | crashed _ _ message hp _ ho =>
    refine ⟨[], _, [], by rw [(h.connecting hp).1]; rfl, rfl, .inl ?_⟩
    simp [collapsed, Script.occurrences, ho]
  | opened _ _ _ hp _ ho _ =>
    obtain ⟨hseen, hinbox⟩ := h.connecting hp
    refine ⟨?_, ?_, Script.pairwise_schedule ..⟩
    · simp only [Session.opened, hseen, hinbox, Script.opened_feed ho s.clock]
      simp
    · simp [hseen, Occurrence.isFinal, Occurrence.verdict?]
  | noted _ _ _ hp _ hi hr _ _ => exact h.look hp hi hr hp rfl rfl rfl
  | spawned _ _ hp _ hi _ _ => exact h.look hp hi rfl hp rfl rfl rfl
  | loggedIn _ _ hp _ hi _ _ => exact h.look hp hi (by decide) hp rfl rfl rfl
  | ended o _ _ _ _ hp ho hv _ _ =>
    obtain ⟨hall, -, -⟩ := h.running hp
    have hfinal := Occurrence.isFinal_of_failure hv
    rcases ho with ⟨rfl, hs⟩ | ⟨-, r, rest, rfl, hi⟩
    · exact ⟨seen, .stop, _, rfl, hfinal, .inr ⟨rfl, hs, hall⟩⟩
    · refine ⟨seen, .report r, (rest ++ s.feed.map Prod.snd).map .report, rfl, hfinal, .inl ?_⟩
      rw [hi] at hall
      exact hall

theorem Tracks.report (h : s.Tracks seen) (draw : Draw) : (s.step draw .report).1.Tracks seen := by
  rcases step_report s draw with ⟨-, hs⟩ | ⟨due, r, rest, hp, hf, -, hs⟩ <;> rw [hs]
  · exact h
  · obtain ⟨hall, hopen, hsorted⟩ := h.running hp
    rw [hf] at hall hsorted
    unfold Tracks
    simp only [hp]
    refine ⟨?_, hopen, (List.pairwise_cons.mp hsorted).2⟩
    rw [← hall]
    simp

theorem Tracks.congr (h : s.Tracks seen) {s' : Session} (hp : s'.phase = s.phase)
    (hi : s'.inbox = s.inbox) (hf : s'.feed = s.feed) (hscript : s'.script = s.script)
    (hs : s.stopping = true → s'.stopping = true) : s'.Tracks seen := by
  unfold Tracks at h ⊢
  rw [hp, hi, hf, hscript]
  cases hphase : s.phase <;> rw [hphase] at h
  case finished | crashed =>
    obtain ⟨before, o, rest, hseen, hfinal, hrest⟩ := h
    exact ⟨before, o, rest, hseen, hfinal, hrest.imp_right fun ⟨ho, hst, hr⟩ => ⟨ho, hs hst, hr⟩⟩
  all_goals exact h

theorem Tracks.routine (h : s.Tracks seen) (draw : Draw) (task : Routine.Task) :
    (s.step draw (.routine task)).1.Tracks seen := by
  rcases step_routine s draw task with ⟨-, hs⟩ | ⟨r, -, -, hs⟩ <;> rw [hs]
  · exact h
  · exact h.congr rfl rfl rfl rfl id

/-- What has been seen comes from the script in its order, but for a request to stop at the end. -/
theorem Tracks.prefix_occurrences (h : s.Tracks seen) :
    (∃ rest, seen ++ rest = s.script.occurrences) ∨
      s.stopping = true ∧ ∃ before rest, seen = before ++ [.stop] ∧
        before ++ rest = s.script.occurrences := by
  unfold Tracks at h
  cases hp : s.phase <;> rw [hp] at h
  case fresh | connecting => exact .inl ⟨s.script.occurrences, by rw [h.1]; rfl⟩
  case running => exact .inl ⟨_, h.1⟩
  all_goals
    obtain ⟨before, o, rest, hseen, -, hrest | ⟨rfl, hs, hrest⟩⟩ := h
    · exact .inl ⟨rest, by rw [hseen, List.append_assoc]; exact hrest⟩
    · exact .inr ⟨hs, before, rest, hseen, hrest⟩

end Tracks

end Session

end BotFleet
