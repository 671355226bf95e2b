import BotFleet.Proofs.Gateway.Grammar
import BotFleet.Proofs.Json.Range
import BotFleet.Proofs.Json.Soundness
import Mathlib

/-!
# Decoding is the grammar

The messages of both sides are read from texts by their grammar and by nothing else.

* `ServerMessage.union_wellFormed`, `ClientMessage.union_wellFormed`: the variants of both sides can
  be told apart;
* `Union.Follows`, `Union.follows`: texts are read by a grammar;
* **`Union.messages_follow`**: both sides follow theirs;
* `Union.control_of_nothing_and_number_in_range`: where the grammar is wider and where it is
  narrower than it looks.
-/

namespace BotFleet

open Json (Spelled ofText?_eq_ok_iff)

theorem ServerMessage.union_wellFormed : ServerMessage.union.WellFormed :=
  ⟨by decide, by decide, by decide⟩

theorem ClientMessage.union_wellFormed : ClientMessage.union.WellFormed :=
  ⟨by decide, by decide, by decide⟩

namespace Union

/-- **The texts that spell an object or a list are read by a grammar**, `Says`. -/
structure Follows {μ : Type} (u : Union μ) (decode? : String → Except FrameFlaw μ)
    (Says : List (String × Json) → μ → Prop) : Prop where
  object {text : String} {ms : List (String × Json)} : Spelled text (.obj ms) → ∀ m,
    decode? text = .ok m ↔ Says ms m
  rearranged {text text' : String} {ms ms' : List (String × Json)} : Spelled text (.obj ms) →
    Spelled text' (.obj ms') → u.Rearranged ms ms' →
    ∀ m, decode? text = .ok m ↔ decode? text' = .ok m
  listed {text text' : String} {ms : List (String × Json)} {w : Variant μ} {vs : List Json} :
    Spelled text (.obj ms) → w ∈ u.variants → Once ms tagName (.str w.name) →
    List.Forall₂ (fun f v => Once ms f.name v) w.fields vs →
    Spelled text' (.arr (.str w.name :: vs)) → ∀ m, decode? text' = .ok m ↔ decode? text = .ok m

theorem follows {μ : Type} {u : Union μ} (hu : u.WellFormed)
    {Says : List (String × Json) → μ → Prop} (hsaid : ∀ {ms m}, Says ms m ↔
      ∃ w ∈ u.variants, Once ms tagName (.str w.name) ∧
        ∃ row, Row.Holds w.fields ms row ∧ w.build row = m) : u.Follows u.ofText? Says where
  object h m := by rw [u.ofText?_of_spelled h, ofJson_obj_eq_ok_iff hu, hsaid]
  rearranged h h' hms m := by
    rw [u.ofText?_of_spelled h, u.ofText?_of_spelled h', ofJson_rearranged hu hms]
  listed h hw hname hvs h' m := by
    rw [u.ofText?_of_spelled h, u.ofText?_of_spelled h', ofJson_listed hu hw hname hvs]

/-- **Decoding is the grammar**, for the messages of both sides.

* `object`: a text that spells an object is read as a message iff the object says this message: its
  tag occurs once and names a variant, and each field of that variant occurs once with a value of
  its kind. A text that spells an object which says no message is refused.
* `rearranged`: nothing else matters. Members may be put into another order, and members with other
  names may be added or taken away, in the object or in a point that is one of its fields.
* `listed`: an object is read as the list of its tag and its fields in the order of their
  declaration.

A text spells a value if it is JSON with at most `Json.maxDepth` brackets inside one another,
without lone surrogates, and if none of its numbers becomes too large while it is read. Of the
numbers up to `1.797693134862315e308` none does. -/
theorem messages_follow :
    ServerMessage.union.Follows ServerMessage.decode? ServerMessage.Says ∧
      ClientMessage.union.Follows ClientMessage.decode? ClientMessage.Says ∧
      ∀ n : Json.Numeral, n.InRange → n.value?.isSome :=
  ⟨follows ServerMessage.union_wellFormed ServerMessage.says_iff,
    follows ClientMessage.union_wellFormed ClientMessage.says_iff,
    fun _ => Json.Numeral.value?_isSome⟩

/-- A spawn is read from an object, from that object in another order and with other members, and
from a list; and a number near the largest double has a value. -/
theorem messages_follow_spawn :
    let m := ServerMessage.spawn ⟨.ofInt 1, .ofInt 2, .ofInt 3⟩
    ServerMessage.decode?
      "\x7b\"type\":\"spawn\",\"position\":\x7b\"x\":1,\"y\":2,\"z\":3\x7d\x7d" = .ok m ∧
    ServerMessage.decode?
      "\x7b\"a\":[],\"position\":\x7b\"w\":0,\"z\":3,\"y\":2,\"x\":1\x7d,\"type\":\"spawn\"\x7d" =
        .ok m ∧
    ServerMessage.decode? "[\"spawn\",\x7b\"x\":1,\"y\":2,\"z\":3\x7d]" = .ok m ∧
    (Json.Numeral.mk false ['1'] (some ['7']) (some ⟨'e', [], ['3', '0', '8']⟩)).value?.isSome := by
  intro m
  obtain ⟨⟨hobject, hrearranged, hlisted⟩, -, hrange⟩ := messages_follow
  let inner : List (String × Json) := [("x", .int 1), ("y", .int 2), ("z", .int 3)]
  let ms : List (String × Json) := [("type", .str "spawn"), ("position", .obj inner)]
  have htext : Spelled "\x7b\"type\":\"spawn\",\"position\":\x7b\"x\":1,\"y\":2,\"z\":3\x7d\x7d"
      (.obj ms) := ofText?_eq_ok_iff.mp (by cbv)
  have htag : Once ms tagName (.str "spawn") := by simp [Once, ms, tagName]
  have hposition : Once ms "position" (.obj inner) := by simp [Once, ms]
  have hsaid : ServerMessage.Says ms m :=
    .spawn htag ⟨_, hposition, .object ⟨⟨_, by simp [Once, inner], .whole 1⟩,
      ⟨_, by simp [Once, inner], .whole 2⟩, ⟨_, by simp [Once, inner], .whole 3⟩⟩⟩
  -- the point is turned round and gets a member more, and then so does the object
  have hinner : Shuffled (· ∈ Field.coordinates.map Field.name) inner
      (("w", .int 0) :: inner.reverse) :=
    .trans (.order inner.reverse_perm.symm) (.added _ (by decide))
  have hpoint : ∀ w ∈ ServerMessage.union.variants,
      Once [("type", .str "spawn")] tagName (.str w.name) →
      ∀ f ∈ w.fields, f.name = "position" → f = .point "position" := by
    intro w hw hw' f hf _
    have hspawn : "spawn" = w.name := by simpa [Once, tagName] using hw'
    simp only [ServerMessage.union, List.mem_cons, List.not_mem_nil, or_false] at hw
    rcases hw with rfl | rfl | rfl | rfl | rfl | rfl | rfl
    case inr.inl => exact List.mem_singleton.mp hf
    all_goals exact absurd hspawn (by decide)
  have hother : ∀ w ∈ ServerMessage.union.variants, ∀ f ∈ w.fields, f.name ≠ "a" := by decide
  have hignored : ¬ServerMessage.union.Counts
      [("position", .obj (("w", .int 0) :: inner.reverse)), ("type", .str "spawn")] "a" := by
    rintro (htag' | ⟨w, hw, -, f, hf, hname⟩)
    · exact absurd htag' (by decide)
    · exact hother w hw f hf hname
  have hms : ServerMessage.union.Rearranged ms (("a", .arr []) ::
      [("position", .obj (("w", .int 0) :: inner.reverse)), ("type", .str "spawn")]) :=
    .trans (.members (.order (.swap ..))) <| .trans (.point (by decide) hpoint hinner) <|
      .members (.added _ hignored)
  have hread := (hobject htext m).mpr hsaid
  exact ⟨hread, (hrearranged htext (ofText?_eq_ok_iff.mp (by cbv)) hms m).mp hread,
    (hlisted htext (List.getElem_mem (n := 1) (by decide)) htag (.cons hposition .nil)
      (ofText?_eq_ok_iff.mp (by cbv)) m).mpr hread,
    hrange _ (by unfold Json.Numeral.InRange Double.Below; decide +kernel)⟩

/-- **A control may be an object in which its name stands for an empty object**, and a number may be
too large while it is read although it is not above the largest double. -/
theorem control_of_nothing_and_number_in_range :
    let text :=
      "\x7b\"type\":\"controlState\",\"control\":\x7b\"forward\":\x7b\x7d\x7d,\"engaged\":true\x7d"
    (Spelled text (.obj [("type", .str "controlState"), ("control", .obj [("forward", .obj [])]),
          ("engaged", .bool true)]) ∧
        ClientMessage.decode? text = .ok (.controlState .forward true)) ∧
      17976931348623157081 * 10 ^ 289 * Double.one ≤ Double.unitsOf Double.largest ∧
        ServerMessage.decode? "\x7b\"type\":\"login\",\"a\":17976931348623157081e289\x7d" =
          .error (.text .malformed) := by
  intro text
  exact ⟨⟨ofText?_eq_ok_iff.mp (by cbv), by decide +kernel⟩, by decide +kernel, by decide +kernel⟩

end Union

end BotFleet
