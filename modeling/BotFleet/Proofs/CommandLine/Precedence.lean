import BotFleet.Proofs.CommandLine.Spelling
import Mathlib.Data.List.Sigma

/-!
# Where the value of a setting comes from

The command line comes before the environment, and the environment before the default.

* `Entry`, `Entry.choice`: a setting that is written on a command line, and what it says;
* `Progress.Reads`, **`Progress.Reads.entry`**, `Progress.Reads.line`: what has been read after the
  words of an entry, and after those of a line;
* **`readVariables_eq`**: what the environment adds;
* **`readSettings_eq`**: what a line in an environment comes to;
* **`line_before_environment`**: the law of precedence.
-/

namespace BotFleet

/-- A setting that is written on a command line: its value, the text of the value, and the words. -/
structure Entry where
  setting : Setting
  value : setting.Value
  text : String
  words : List String
  denotes : setting.Denotes text value
  spelled : setting.Spells text words

/-- What an entry says, however it is written. -/
def Entry.choice (x : Entry) : Sigma Setting.Value := ⟨x.setting, x.value⟩

namespace Chosen

variable {c : Chosen} {s t : Setting} {v : s.Value}

theorem set_self : c.set s v s = some v := dif_pos rfl

theorem set_of_ne (h : s ≠ t) : c.set s v t = c t := dif_neg h

/-- What some entries say. -/
def of (line : List Entry) : Chosen := fun s => (line.map Entry.choice).dlookup s

/-- Values for some settings, and other values for those that have none. -/
def orElse (c c' : Chosen) : Chosen := fun s => (c s).or (c' s)

theorem orElse_congr {d d' : Chosen} (h : ∀ s, c s = none → d s = d' s) :
    c.orElse d = c.orElse d' := by
  funext s
  cases hs : c s with
  | none => rw [orElse, orElse, h s hs]
  | some v => rw [orElse, orElse, hs]; rfl

theorem keys_choices (line : List Entry) :
    (line.map Entry.choice).keys = line.map Entry.setting :=
  List.map_map

theorem of_eq_none_iff {line : List Entry} : of line s = none ↔ s ∉ line.map Entry.setting := by
  rw [of, List.dlookup_eq_none, keys_choices]

theorem of_cons_orElse {x : Entry} {line : List Entry} (hx : x.setting ∉ line.map Entry.setting)
    (c : Chosen) : (of (x :: line)).orElse c = (of line).orElse (c.set x.setting x.value) := by
  funext s
  by_cases h : x.setting = s
  · subst h
    have hself : of (x :: line) x.setting = some x.value := List.dlookup_cons_eq ..
    rw [orElse, orElse, hself, of_eq_none_iff.mpr hx, set_self]
    rfl
  · have hother : of (x :: line) s = of line s := List.dlookup_cons_ne _ _ (Ne.symm h)
    rw [orElse, orElse, hother, set_of_ne h]

end Chosen

/-! ## The command line -/

namespace Progress

variable {p : Progress} {c : Chosen} {s : Setting}

/-- What has been read comes to these values, once the value that is pending has been looked at. -/
structure Reads (p : Progress) (c : Chosen) : Prop where
  joined : p.separated = false
  settled : p.settle = .ok { chosen := c }

theorem reads_start : Reads {} .empty := ⟨rfl, rfl⟩

theorem take_flag (h : p.separated = false) {word : String} {f : Flag} {attached : Option String}
    (hword : Word.classify word = .flag f attached) : p.take word = p.takeFlag f attached := by
  simp only [take, h, hword, Bool.false_eq_true, if_false]

theorem choose_eq (hopen : p.chosen s = none) {text : String} {v : s.Value}
    (hv : s.Denotes text v) : p.choose s text = .ok { p with chosen := p.chosen.set s v } := by
  have hread := (s.read_eq_some_iff text v).mpr hv
  simp only [choose, hopen, hread, Option.isSome_none, Bool.false_eq_true, if_false]

theorem Reads.joined_word (h : p.Reads c) (hopen : c s = none) (hs : s.isSwitch = false)
    {word text : String} (hword : Word.classify word = .flag (.setting s) (some text)) {v : s.Value}
    (hv : s.Denotes text v) : p.take word = .ok { chosen := c.set s v } := by
  rw [take_flag h.joined hword]
  simp only [takeFlag, hs, Bool.false_eq_true, if_false, h.settled]
  exact choose_eq hopen hv

theorem Reads.switch_word (h : p.Reads c) (hopen : c s = none) (hs : s.isSwitch = true)
    {word : String} (hword : Word.classify word = .flag (.setting s) none) {v : s.Value}
    (hv : s.Denotes "true" v) : p.take word = .ok { chosen := c.set s v } := by
  rw [take_flag h.joined hword]
  simp only [takeFlag, hs, if_true, h.settled]
  exact choose_eq hopen hv

/-- A value that is a word of its own is pending until the next flag. -/
theorem Reads.apart_words (h : p.Reads c) (hs : s.isSwitch = false) {word word' text : String}
    (hword : Word.classify word = .flag (.setting s) none)
    (hword' : Word.classify word' = .plain text) :
    [word, word'].foldlM take p = .ok { chosen := c, pending := some (s, some text) } := by
  have hflag : p.take word = .ok { chosen := c, pending := some (s, none) } := by
    rw [take_flag h.joined hword]
    simp only [takeFlag, hs, Bool.false_eq_true, if_false, h.settled]
    rfl
  have htext : take { chosen := c, pending := some (s, none) } word' =
      .ok { chosen := c, pending := some (s, some text) } := by
    simp only [take, hword', Bool.false_eq_true, if_false]
  simp only [List.foldlM, hflag]
  exact congrArg (· >>= pure) htext

theorem Reads.words (h : p.Reads c) (hopen : c s = none) {text : String} {words : List String}
    {v : s.Value} (hforms : s.Forms text (words.map Word.classify)) (hv : s.Denotes text v) :
    ∃ p', words.foldlM take p = .ok p' ∧ p'.Reads (c.set s v) := by
  generalize hmap : words.map Word.classify = forms at hforms
  cases hforms with
  | apart _ hs =>
    obtain ⟨word, rest, rfl, hword, hrest⟩ := List.map_eq_cons_iff.mp hmap
    obtain ⟨word', rest', rfl, hword', hnil⟩ := List.map_eq_cons_iff.mp hrest
    obtain rfl := List.map_eq_nil_iff.mp hnil
    exact ⟨_, h.apart_words hs hword hword', rfl, choose_eq hopen hv⟩
  | joined _ hs =>
    obtain ⟨word, rest, rfl, hword, hnil⟩ := List.map_eq_cons_iff.mp hmap
    obtain rfl := List.map_eq_nil_iff.mp hnil
    exact ⟨_, congrArg (· >>= pure) (h.joined_word hopen hs hword hv), rfl, rfl⟩
  | switch hs =>
    obtain ⟨word, rest, rfl, hword, hnil⟩ := List.map_eq_cons_iff.mp hmap
    obtain rfl := List.map_eq_nil_iff.mp hnil
    exact ⟨_, congrArg (· >>= pure) (h.switch_word hopen hs hword hv), rfl, rfl⟩

/-- **The words of an entry give its setting its value.** -/
theorem Reads.entry (h : p.Reads c) (x : Entry) (hopen : c x.setting = none) :
    ∃ p', x.words.foldlM take p = .ok p' ∧ p'.Reads (c.set x.setting x.value) :=
  h.words hopen (x.spelled.forms x.denotes) x.denotes

/-- **The words of a line give each of its settings its value.** -/
theorem Reads.line (h : p.Reads c) {line : List Entry} (hnodup : (line.map Entry.setting).Nodup)
    (hopen : ∀ x ∈ line, c x.setting = none) :
    ∃ p', (line.flatMap Entry.words).foldlM take p = .ok p' ∧
      p'.Reads ((Chosen.of line).orElse c) := by
  induction line generalizing p c with
  | nil => exact ⟨p, rfl, h⟩
  | cons x line ih =>
    obtain ⟨hx, hnodup⟩ := List.nodup_cons.mp hnodup
    obtain ⟨hopenx, hopen⟩ := List.forall_mem_cons.mp hopen
    have hne : ∀ y ∈ line, x.setting ≠ y.setting := fun y hy heq =>
      hx (heq ▸ List.mem_map_of_mem hy)
    obtain ⟨p₁, hp₁, hreads₁⟩ := h.entry x hopenx
    obtain ⟨p', hp', hreads'⟩ := ih hreads₁ hnodup fun y hy =>
      (Chosen.set_of_ne (hne y hy)).trans (hopen y hy)
    refine ⟨p', ?_, ?_⟩
    · rw [List.flatMap_cons, List.foldlM_append, hp₁]
      exact hp'
    · rwa [Chosen.of_cons_orElse hx c]

end Progress

theorem readWords_eq {line : List Entry} (hnodup : (line.map Entry.setting).Nodup) :
    readWords (line.flatMap Entry.words) = .ok (Chosen.of line) := by
  obtain ⟨p, hp, hreads⟩ := Progress.reads_start.line hnodup fun _ _ => rfl
  have hchosen : (Chosen.of line).orElse .empty = Chosen.of line := funext fun s => Option.or_none
  rw [readWords, hp]
  show p.settle >>= _ = _
  rw [hreads.settled, hchosen]
  rfl

/-! ## The environment -/

/-- The values of the variables that stand for one. -/
def Environment.chosen (env : Environment) : Chosen := fun s =>
  (env s.variableName).bind s.read

/-- The variables of the settings that are not given are unset or stand for a value. -/
def Environment.Suits (env : Environment) (given : Chosen) : Prop :=
  ∀ s, given s = none → ∀ text, env s.variableName = some text → ∃ v, s.Denotes text v

section Variables

variable {env : Environment} {given : Chosen} (h : env.Suits given)
include h

/-- A setting that has what is given, or already what it comes to, then has what it comes to. -/
theorem takeVariable_eq {chosen : Chosen} {s : Setting}
    (hs : chosen s = given s ∨ chosen s = given.orElse env.chosen s) :
    ∃ chosen', takeVariable env given chosen s = .ok chosen' ∧
      chosen' s = given.orElse env.chosen s ∧ ∀ t, s ≠ t → chosen' t = chosen t := by
  unfold takeVariable
  cases hgiven : given s with
  | some w =>
    have hgoal : given.orElse env.chosen s = given s := by rw [Chosen.orElse, hgiven]; rfl
    rw [hgoal, or_self] at hs
    exact ⟨chosen, rfl, hs.trans hgoal.symm, fun _ _ => rfl⟩
  | none =>
    cases htext : env s.variableName with
    | none =>
      have hgoal : given.orElse env.chosen s = given s := by
        rw [Chosen.orElse, Environment.chosen, hgiven, htext]
        rfl
      rw [hgoal, or_self] at hs
      exact ⟨chosen, rfl, hs.trans hgoal.symm, fun _ _ => rfl⟩
    | some text =>
      obtain ⟨v, hv⟩ := h s hgiven text htext
      have hread := (s.read_eq_some_iff text v).mpr hv
      refine ⟨chosen.set s v, by simp only [hread], ?_, fun t ht => Chosen.set_of_ne ht⟩
      rw [Chosen.set_self, Chosen.orElse, Environment.chosen, hgiven, htext, Option.bind_some,
        hread]
      rfl

/-- **What the environment adds to what is given.** -/
theorem readVariables_eq : readVariables env given = .ok (given.orElse env.chosen) := by
  -- the settings that have been looked at have what they come to, and the others what is given
  have hrun (left : List Setting) (chosen : Chosen)
      (hdone : ∀ s ∉ left, chosen s = given.orElse env.chosen s)
      (hleft : ∀ s ∈ left, chosen s = given s ∨ chosen s = given.orElse env.chosen s) :
      left.foldlM (takeVariable env given) chosen = .ok (given.orElse env.chosen) := by
    induction left generalizing chosen with
    | nil => exact congrArg Except.ok (funext fun s => hdone s nofun)
    | cons s left ih =>
      obtain ⟨chosen', htake, hs, hothers⟩ :=
        takeVariable_eq h (hleft s List.mem_cons_self)
      rw [List.foldlM_cons, htake]
      refine ih chosen' (fun t ht => ?_) (fun t ht => ?_)
      · by_cases hst : s = t
        · exact hst ▸ hs
        · rw [hothers t hst]
          exact hdone t fun hmem => ht ((List.mem_cons.mp hmem).resolve_left (Ne.symm hst))
      · by_cases hst : s = t
        · exact .inr (hst ▸ hs)
        · rw [hothers t hst]
          exact hleft t (List.mem_cons_of_mem s ht)
  have hall (s : Setting) : s ∈ Setting.all := by cases s <;> decide
  exact hrun Setting.all given (fun s hs => absurd (hall s) hs) fun s _ => .inl rfl

end Variables

/-- **What a line in an environment comes to.** -/
theorem readSettings_eq {line : List Entry} (hnodup : (line.map Entry.setting).Nodup)
    {env : Environment} (h : env.Suits (.of line)) :
    readSettings (line.flatMap Entry.words) env =
      .ok ((Chosen.of line).orElse env.chosen).withDefaults := by
  rw [readSettings, readWords_eq hnodup]
  show readVariables env (.of line) >>= _ = _
  rw [readVariables_eq h]
  rfl

/-! ## The law of precedence -/

/-- **The law of precedence.** If no setting is written twice, whatever the words are, and the
variable of every other setting is unset or stands for a value, then the line is read, and

* a setting that is written has the value that is written;
* any other setting has the value of its variable, or its default if the variable is unset;
* this depends neither on the order of the line nor on how its values are written, and not on the
  variables of the settings that are written, which need not stand for a value. -/
theorem line_before_environment (line : List Entry) (hnodup : (line.map Entry.setting).Nodup)
    (env : Environment)
    (henv : ∀ s, s ∉ line.map Entry.setting → ∀ text, env s.variableName = some text →
      ∃ v, s.Denotes text v) :
    ∃ settings, readSettings (line.flatMap Entry.words) env = .ok settings ∧
      (∀ x ∈ line, settings x.setting = x.value) ∧
      (∀ s, s ∉ line.map Entry.setting →
        (∀ text v, env s.variableName = some text → s.Denotes text v → settings s = v) ∧
        (env s.variableName = none → settings s = s.default)) ∧
      ∀ (line' : List Entry) (env' : Environment),
        (line'.map Entry.choice).Perm (line.map Entry.choice) →
        (∀ s, s ∉ line.map Entry.setting → env' s.variableName = env s.variableName) →
        readSettings (line'.flatMap Entry.words) env' = .ok settings := by
  have hkeys : (line.map Entry.choice).NodupKeys := by
    rw [List.NodupKeys, Chosen.keys_choices]
    exact hnodup
  have hsuits : env.Suits (.of line) := fun s hs => henv s (Chosen.of_eq_none_iff.mp hs)
  refine ⟨_, readSettings_eq hnodup hsuits, fun x hx => ?_, fun s hs => ⟨fun text v htext hv => ?_,
    fun hunset => ?_⟩, fun line' env' hperm hsame => ?_⟩
  · have hsays : Chosen.of line x.setting = some x.value :=
      List.mem_dlookup hkeys (List.mem_map_of_mem hx)
    simp only [Chosen.withDefaults, Chosen.orElse, hsays]
    rfl
  · have hread := (s.read_eq_some_iff text v).mpr hv
    simp only [Chosen.withDefaults, Chosen.orElse, Chosen.of_eq_none_iff.mpr hs, Environment.chosen,
      htext, Option.bind_some, hread]
    rfl
  · simp only [Chosen.withDefaults, Chosen.orElse, Chosen.of_eq_none_iff.mpr hs, Environment.chosen,
      hunset]
    rfl
  · have hof : Chosen.of line' = .of line :=
      funext fun s => (List.perm_dlookup s hkeys hperm.symm).symm
    have hnodup' : (line'.map Entry.setting).Nodup := by
      rw [← Chosen.keys_choices]
      exact (List.perm_nodupKeys hperm).mpr hkeys
    have hvariables (s : Setting) (hs : Chosen.of line s = none) :
        env' s.variableName = env s.variableName := hsame s (Chosen.of_eq_none_iff.mp hs)
    have hsuits' : env'.Suits (.of line') := fun s hs text htext => by
      rw [hof] at hs
      exact hsuits s hs text (hvariables s hs ▸ htext)
    have hchosen : (Chosen.of line).orElse env'.chosen = (Chosen.of line).orElse env.chosen :=
      Chosen.orElse_congr fun s hs => by
        rw [Environment.chosen, Environment.chosen, hvariables s hs]
    rw [readSettings_eq hnodup' hsuits', hof, hchosen]

/-- A line in mixed spellings, with values that look like flags or are empty, in an environment in
which the variables of two of its settings stand for nothing. -/
theorem line_before_environment_mixed :
    let line : List Entry := [
      ⟨.host, "-a=b", "-a=b", _, rfl, .joined "-a=b" rfl⟩,
      ⟨.port, (0 : UInt16), "-0", _, Setting.port?_eq_some_iff.mp (by decide +kernel),
        .letterEquals 'p' "-0" rfl⟩,
      ⟨.json, true, "true", _, .inl ⟨rfl, rfl⟩, .switch rfl⟩,
      ⟨.gatewayPath, "", "", _, rfl, .apart "" rfl (by simp [Setting.Apart])⟩,
      ⟨.bots, (40 : UInt64), "+40", _, Setting.word?_eq_some_iff.mp (by decide +kernel),
        .letterJoined 'n' "+40" rfl⟩]
    let env : Environment := fun name => [("BOTSWARM_PORT", "none"), ("BOTSWARM_JSON", "maybe"),
      ("BOTSWARM_HOLD_SECS", "60")].lookup name
    line.flatMap Entry.words = ["--host=-a=b", "-p=-0", "--json", "--gateway-path", "", "-n+40"] ∧
      ∃ settings, readSettings (line.flatMap Entry.words) env = .ok settings ∧
        settings .host = "-a=b" ∧ settings .port = (0 : UInt16) ∧
        settings .holdSecs = some (60 : UInt64) ∧ settings .gameVersion = "1.21.4" := by
  intro line env
  have hvariable (s : Setting) (hs : s ∉ line.map Entry.setting) :
      env s.variableName = if s = .holdSecs then some "60" else none := by
    revert hs
    cases s <;> decide +kernel
  have hholdSecs : Setting.Denotes .holdSecs "60" (some (60 : UInt64)) :=
    ⟨60, rfl, Setting.word?_eq_some_iff.mp (by decide +kernel)⟩
  obtain ⟨settings, hread, hwritten, hothers, -⟩ :=
    line_before_environment line (by decide +kernel) env fun s hs text htext => by
      rw [hvariable s hs] at htext
      split at htext
      · subst s
        cases htext
        exact ⟨_, hholdSecs⟩
      · cases htext
  refine ⟨by decide +kernel, settings, hread, hwritten _ List.mem_cons_self,
    hwritten _ (List.mem_cons_of_mem _ List.mem_cons_self), ?_, ?_⟩
  · exact (hothers .holdSecs (by decide +kernel)).1 _ _ (hvariable _ (by decide +kernel)) hholdSecs
  · exact (hothers .gameVersion (by decide +kernel)).2 (hvariable _ (by decide +kernel))

end BotFleet
