import BotFleet.Gateway.Decoding
import BotFleet.Proofs.Gateway.Union

/-!
# The grammar of messages

Which objects say which messages, with nothing said about how they are read.

* `IsNumber`, `IsPoint`, `IsControl`: the values of fields;
* **`ServerMessage.Says`**, **`ClientMessage.Says`**: the objects that say a message;
* `ServerMessage.says_iff`, `ClientMessage.says_iff`: they are those that hold a variant.
-/

namespace BotFleet

/-! ## Values of fields -/

/-- A value is a number; a whole one is rounded to a double. -/
inductive IsNumber : Json → Double → Prop where
  | whole (n : Int) : IsNumber (.int n) (Double.ofInt n)
  | double (d : Double) : IsNumber (.double d) d

/-- The coordinates of a point are among some members, each of them once. -/
structure HasCoordinates (ms : List (String × Json)) (p : Point) : Prop where
  x : ∃ v, Once ms "x" v ∧ IsNumber v p.x
  y : ∃ v, Once ms "y" v ∧ IsNumber v p.y
  z : ∃ v, Once ms "z" v ∧ IsNumber v p.z

/-- A value is a point: an object with its coordinates, or the list of them. -/
inductive IsPoint : Json → Point → Prop where
  | object {ms : List (String × Json)} {p : Point} : HasCoordinates ms p → IsPoint (.obj ms) p
  | list {x y z : Json} {p : Point} : IsNumber x p.x → IsNumber y p.y → IsNumber z p.z →
      IsPoint (.arr [x, y, z]) p

/-- A value is a control: its name, or an object whose only member has that name and is `null` or an
empty object. -/
inductive IsControl : Json → Control → Prop where
  | name (c : Control) : IsControl (.str c.name) c
  | null (c : Control) : IsControl (.obj [(c.name, .null)]) c
  | nothing (c : Control) : IsControl (.obj [(c.name, .obj [])]) c

namespace Field

variable {ms : List (String × Json)} {v : Json} {name : String}

theorem text_read_eq_ok_iff {s : String} : (text name).read v = .ok s ↔ v = .str s := by
  cases v <;> simp [text, wrong]

theorem flag_read_eq_ok_iff {b : Bool} : (flag name).read v = .ok b ↔ v = .bool b := by
  cases v <;> simp [flag, wrong]

theorem number_read_eq_ok_iff {d : Double} : (number name).read v = .ok d ↔ IsNumber v d := by
  constructor
  · intro h
    cases v with
    | int n => cases h; exact .whole n
    | double d => cases h; exact .double d
    | _ => cases h
  · rintro (n | d) <;> rfl

theorem held_iff {f : Field} {x : f.Value} {P : Json → Prop} (h : ∀ v, f.read v = .ok x ↔ P v) :
    (∃ v, Once ms f.name v ∧ f.read v = .ok x) ↔ ∃ v, Once ms f.name v ∧ P v :=
  exists_congr fun v => and_congr_right fun _ => h v

theorem number_held_iff {d : Double} :
    (∃ v, Once ms (number name).name v ∧ (number name).read v = .ok d) ↔
      ∃ v, Once ms name v ∧ IsNumber v d :=
  held_iff fun _ => number_read_eq_ok_iff

theorem holds_coordinates_iff {row : Row coordinates} :
    Row.Holds coordinates ms row ↔ HasCoordinates ms (toPoint row) := by
  obtain ⟨x, y, z, ⟨⟩⟩ := row
  exact ⟨fun ⟨hx, hy, hz, _⟩ =>
      ⟨number_held_iff.mp hx, number_held_iff.mp hy, number_held_iff.mp hz⟩,
    fun ⟨hx, hy, hz⟩ =>
      ⟨number_held_iff.mpr hx, number_held_iff.mpr hy, number_held_iff.mpr hz, trivial⟩⟩

theorem lists_coordinates_iff {vs : List Json} {row : Row coordinates} :
    Row.Lists coordinates vs row ↔ IsPoint (.arr vs) (toPoint row) := by
  obtain ⟨x, y, z, ⟨⟩⟩ := row
  constructor
  · intro h
    match vs, h with
    | [_, _, _], ⟨hx, hy, hz, _⟩ =>
      exact .list (number_read_eq_ok_iff.mp hx) (number_read_eq_ok_iff.mp hy)
        (number_read_eq_ok_iff.mp hz)
  · intro h
    cases h with
    | list hx hy hz =>
      exact ⟨number_read_eq_ok_iff.mpr hx, number_read_eq_ok_iff.mpr hy,
        number_read_eq_ok_iff.mpr hz, rfl⟩

theorem map_toPoint_eq_ok_iff {row? : Except Mismatch (Row coordinates)} {p : Point} :
    row?.map toPoint = .ok p ↔ row? = .ok (p.x, p.y, p.z, ()) := by
  cases row? with
  | error e => simp [Except.map]
  | ok row =>
    obtain ⟨x, y, z, ⟨⟩⟩ := row
    refine ⟨fun h => ?_, fun h => ?_⟩
    · rw [← Except.ok.inj h]
      rfl
    · rw [Except.ok.inj h]
      rfl

theorem point_read_eq_ok_iff {p : Point} : (point name).read v = .ok p ↔ IsPoint v p := by
  cases v with
  | obj ms =>
    refine (map_toPoint_eq_ok_iff.trans (Row.ofMembers_eq_ok_iff (by decide) ms _)).trans ?_
    exact holds_coordinates_iff.trans ⟨.object, fun | .object h => h⟩
  | arr vs =>
    exact (map_toPoint_eq_ok_iff.trans (Row.ofItems_eq_ok_iff _ vs _)).trans lists_coordinates_iff
  | _ => exact ⟨nofun, nofun⟩

theorem controlOf_eq_ok_iff {c : Control} : controlOf name = .ok c ↔ name = c.name := by
  cases c
  unfold controlOf
  split <;> simp_all

theorem control_read_eq_ok_iff {c : Control} : (control name).read v = .ok c ↔ IsControl v c := by
  cases v with
  | str s => exact controlOf_eq_ok_iff.trans ⟨fun h => h ▸ .name c, fun | .name _ => rfl⟩
  | obj ms =>
    match ms with
    | [(s, v)] =>
      have hread : (control name).read (.obj [(s, v)]) = .ok c ↔
          controlOf s = .ok c ∧ (v = .null ∨ v = .obj []) := by
        simp only [control]
        cases controlOf s with
        | error e => simp [bind, Except.bind]
        | ok c' =>
          simp only [bind, Except.bind]
          split <;> simp_all [wrong]
      rw [hread, controlOf_eq_ok_iff]
      constructor
      · rintro ⟨rfl, rfl | rfl⟩
        · exact .null c
        · exact .nothing c
      · rintro (_ | _ | _)
        · exact ⟨rfl, .inl rfl⟩
        · exact ⟨rfl, .inr rfl⟩
    | [] | _ :: _ :: _ => exact ⟨nofun, nofun⟩
  | _ => exact ⟨nofun, nofun⟩

theorem text_held_iff {s : String} :
    (∃ v, Once ms (text name).name v ∧ (text name).read v = .ok s) ↔ Once ms name (.str s) :=
  (held_iff fun _ => text_read_eq_ok_iff).trans
    ⟨fun ⟨_, hv, h⟩ => h ▸ hv, fun h => ⟨_, h, rfl⟩⟩

theorem flag_held_iff {b : Bool} :
    (∃ v, Once ms (flag name).name v ∧ (flag name).read v = .ok b) ↔ Once ms name (.bool b) :=
  (held_iff fun _ => flag_read_eq_ok_iff).trans
    ⟨fun ⟨_, hv, h⟩ => h ▸ hv, fun h => ⟨_, h, rfl⟩⟩

end Field

/-! ## Objects -/

/-- **The objects that say a message of the gateway.** The tag occurs once, and so does each field
of the message; the order does not matter, and neither does anything else in the object. -/
inductive ServerMessage.Says (ms : List (String × Json)) : ServerMessage → Prop where
  | login : Once ms "type" (.str "login") → Says ms .login
  | spawn {p : Point} : Once ms "type" (.str "spawn") →
      (∃ v, Once ms "position" v ∧ IsPoint v p) → Says ms (.spawn p)
  | position {p : Point} : Once ms "type" (.str "position") → HasCoordinates ms p →
      Says ms (.position p)
  | chat {username message : String} : Once ms "type" (.str "chat") →
      Once ms "username" (.str username) → Once ms "message" (.str message) →
      Says ms (.chat username message)
  | kicked {reason : String} : Once ms "type" (.str "kicked") → Once ms "reason" (.str reason) →
      Says ms (.kicked reason)
  | ended {reason : String} : Once ms "type" (.str "end") → Once ms "reason" (.str reason) →
      Says ms (.ended reason)
  | failed {message : String} : Once ms "type" (.str "error") → Once ms "message" (.str message) →
      Says ms (.failed message)

/-- **The objects that say a message of a client.** -/
inductive ClientMessage.Says (ms : List (String × Json)) : ClientMessage → Prop where
  | hello {username version : String} : Once ms "type" (.str "hello") →
      Once ms "username" (.str username) → Once ms "version" (.str version) →
      Says ms (.hello username version)
  | lookAt {p : Point} {immediate : Bool} : Once ms "type" (.str "lookAt") → HasCoordinates ms p →
      Once ms "immediate" (.bool immediate) → Says ms (.lookAt p immediate)
  | controlState {c : Control} {engaged : Bool} : Once ms "type" (.str "controlState") →
      (∃ v, Once ms "control" v ∧ IsControl v c) → Once ms "engaged" (.bool engaged) →
      Says ms (.controlState c engaged)
  | chat {message : String} : Once ms "type" (.str "chat") → Once ms "message" (.str message) →
      Says ms (.chat message)

open BotFleet.Field

theorem ServerMessage.says_iff {ms : List (String × Json)} {m : ServerMessage} :
    Says ms m ↔ ∃ w ∈ union.variants, Once ms tagName (.str w.name) ∧
      ∃ row, Row.Holds w.fields ms row ∧ w.build row = m := by
  constructor
  · intro h
    cases h with
    | login htag => exact ⟨_, List.getElem_mem (n := 0) (by decide), htag, (), trivial, rfl⟩
    | @spawn p htag hp =>
      exact ⟨_, List.getElem_mem (n := 1) (by decide), htag, (p, ()),
        ⟨(held_iff fun _ => point_read_eq_ok_iff).mpr hp, trivial⟩, rfl⟩
    | @position p htag hp =>
      exact ⟨_, List.getElem_mem (n := 2) (by decide), htag, (p.x, p.y, p.z, ()),
        holds_coordinates_iff.mpr hp, rfl⟩
    | @chat username message htag hu hm =>
      exact ⟨_, List.getElem_mem (n := 3) (by decide), htag, (username, message, ()),
        ⟨text_held_iff.mpr hu, text_held_iff.mpr hm, trivial⟩, rfl⟩
    | @kicked reason htag hr =>
      exact ⟨_, List.getElem_mem (n := 4) (by decide), htag, (reason, ()),
        ⟨text_held_iff.mpr hr, trivial⟩, rfl⟩
    | @ended reason htag hr =>
      exact ⟨_, List.getElem_mem (n := 5) (by decide), htag, (reason, ()),
        ⟨text_held_iff.mpr hr, trivial⟩, rfl⟩
    | @failed message htag hm =>
      exact ⟨_, List.getElem_mem (n := 6) (by decide), htag, (message, ()),
        ⟨text_held_iff.mpr hm, trivial⟩, rfl⟩
  · rintro ⟨w, hw, htag, row, hrow, rfl⟩
    simp only [union, List.mem_cons, List.not_mem_nil, or_false] at hw
    obtain rfl | rfl | rfl | rfl | rfl | rfl | rfl := hw
    · exact .login htag
    · exact .spawn htag ((held_iff fun _ => point_read_eq_ok_iff).mp hrow.1)
    · exact .position htag (holds_coordinates_iff.mp hrow)
    · exact .chat htag (text_held_iff.mp hrow.1) (text_held_iff.mp hrow.2.1)
    · exact .kicked htag (text_held_iff.mp hrow.1)
    · exact .ended htag (text_held_iff.mp hrow.1)
    · exact .failed htag (text_held_iff.mp hrow.1)

theorem ClientMessage.says_iff {ms : List (String × Json)} {m : ClientMessage} :
    Says ms m ↔ ∃ w ∈ union.variants, Once ms tagName (.str w.name) ∧
      ∃ row, Row.Holds w.fields ms row ∧ w.build row = m := by
  constructor
  · intro h
    cases h with
    | @hello username version htag hu hv =>
      exact ⟨_, List.getElem_mem (n := 0) (by decide), htag, (username, version, ()),
        ⟨text_held_iff.mpr hu, text_held_iff.mpr hv, trivial⟩, rfl⟩
    | @lookAt p immediate htag hp hi =>
      exact ⟨_, List.getElem_mem (n := 1) (by decide), htag, (p.x, p.y, p.z, immediate, ()),
        ⟨number_held_iff.mpr hp.x, number_held_iff.mpr hp.y, number_held_iff.mpr hp.z,
          flag_held_iff.mpr hi, trivial⟩, rfl⟩
    | @controlState c engaged htag hc he =>
      exact ⟨_, List.getElem_mem (n := 2) (by decide), htag, (c, engaged, ()),
        ⟨(held_iff fun _ => control_read_eq_ok_iff).mpr hc, flag_held_iff.mpr he, trivial⟩, rfl⟩
    | @chat message htag hm =>
      exact ⟨_, List.getElem_mem (n := 3) (by decide), htag, (message, ()),
        ⟨text_held_iff.mpr hm, trivial⟩, rfl⟩
  · rintro ⟨w, hw, htag, row, hrow, rfl⟩
    simp only [union, List.mem_cons, List.not_mem_nil, or_false] at hw
    obtain rfl | rfl | rfl | rfl := hw
    · exact .hello htag (text_held_iff.mp hrow.1) (text_held_iff.mp hrow.2.1)
    · obtain ⟨hx, hy, hz, hi, -⟩ := hrow
      exact .lookAt htag
        ⟨number_held_iff.mp hx, number_held_iff.mp hy, number_held_iff.mp hz⟩ (flag_held_iff.mp hi)
    · exact .controlState htag ((held_iff fun _ => control_read_eq_ok_iff).mp hrow.1)
        (flag_held_iff.mp hrow.2.1)
    · exact .chat htag (text_held_iff.mp hrow.1)

end BotFleet
