import BotFleet.Proofs.Gateway.Decoding
import BotFleet.Proofs.Json.Decimal
import BotFleet.Proofs.Json.Writing

/-!
# Messages are read back

The text of a message is read as this message, whatever its strings are, and it is refused if one of
its coordinates is not a number.

* `Json.ReadBack`, `ServerMessage.coordinates`, `ClientMessage.coordinates`: numbers whose text is
  read as themselves, and the numbers of a message;
* `Point.exists_copies`: what the texts of coordinates spell;
* `Speaks`, `ServerMessage.speaks`, `ClientMessage.speaks`: what the text of a message spells;
* `RoundTrips`, **`Union.messages_round_trip`**: both sides read back what they write.
-/

namespace BotFleet

open Json (Spelled Spells Written MemberWritten written_str written_bool written_obj)

/-! ## Coordinates -/

/-- The text of a finite double is read as this double. -/
def Json.ReadBack (d : Double) : Prop :=
  d.isFinite = true ∧ Json.readNumber (Json.numberLayout.double d) = .ok (.double d, [])

open Json (ReadBack)

/-- What the text of a double spells: the double, if it is read back, and `null`, if it is not
finite. -/
structure Copy (d : Double) (v : Json) : Prop where
  written (depth : Nat) : Written depth (.double d) v
  back : ReadBack d → v = .double d
  null : d.isFinite = false → v = .null

theorem exists_copy (d : Double) : ∃ v, Copy d v := by
  have hmono {v : Json} (h : Spells 0 (.value v) (Json.ofDouble d)) (depth : Nat) :
      Written depth (.double d) v := by
    rw [Written, Json.compactChars]
    exact h.mono (Nat.zero_le depth)
  by_cases hback : ReadBack d
  · obtain ⟨hfinite, hread⟩ := hback
    obtain ⟨n, hn, hvalue, htext⟩ := Json.exists_of_readNumber hread
    have hspells : Spells 0 (.value (.double d)) (Json.ofDouble d) := by
      rw [Json.ofDouble, if_pos hfinite, htext, List.append_nil]
      exact .number n hn hvalue
    exact ⟨.double d, hmono hspells, fun _ => rfl, fun h => by rw [hfinite] at h; cases h⟩
  · cases hfinite : d.isFinite with
    | true =>
      obtain ⟨v, hv⟩ := Json.exists_spells_ofDouble d
      exact ⟨v, hmono hv, fun h => absurd h hback, fun h => by rw [hfinite] at h; cases h⟩
    | false =>
      have hspells : Spells 0 (.value .null) (Json.ofDouble d) := by
        rw [Json.ofDouble, hfinite, if_neg Bool.false_ne_true]
        exact .null
      exact ⟨.null, hmono hspells, fun h => absurd h hback, fun _ => rfl⟩

namespace Point

def coordinates (p : Point) : List Double := [p.x, p.y, p.z]

/-- What the texts of the coordinates of a point spell, wherever they are. -/
structure Copies (p : Point) (x y z : Json) : Prop where
  x : Copy p.x x
  y : Copy p.y y
  z : Copy p.z z

theorem exists_copies (p : Point) : ∃ x y z, p.Copies x y z := by
  obtain ⟨x, hx⟩ := exists_copy p.x
  obtain ⟨y, hy⟩ := exists_copy p.y
  obtain ⟨z, hz⟩ := exists_copy p.z
  exact ⟨x, y, z, hx, hy, hz⟩

variable {p : Point} {x y z : Json} {ms : List (String × Json)}

/-- Members that hold the coordinates once each. -/
structure Holds (ms : List (String × Json)) (x y z : Json) : Prop where
  x : Once ms "x" x
  y : Once ms "y" y
  z : Once ms "z" z

theorem Copies.hasCoordinates (h : p.Copies x y z) (hms : Holds ms x y z)
    (hback : ∀ d ∈ p.coordinates, ReadBack d) : HasCoordinates ms p := by
  have hnumber {d : Double} {v : Json} (hd : d ∈ p.coordinates) (hv : Copy d v) : IsNumber v d :=
    hv.back (hback d hd) ▸ .double d
  exact ⟨⟨x, hms.x, hnumber (by simp [coordinates]) h.x⟩,
    ⟨y, hms.y, hnumber (by simp [coordinates]) h.y⟩,
    ⟨z, hms.z, hnumber (by simp [coordinates]) h.z⟩⟩

theorem Copies.not_hasCoordinates (h : p.Copies x y z) (hms : Holds ms x y z)
    (hnot : ∃ d ∈ p.coordinates, d.isFinite = false) (q : Point) : ¬HasCoordinates ms q := by
  have hnumber {name : String} {d e : Double} {v : Json} (hv : Copy d v) (hd : d.isFinite = false)
      (hname : Once ms name v) (hq : ∃ v, Once ms name v ∧ IsNumber v e) : False := by
    obtain ⟨w, hw, hnumber⟩ := hq
    rw [hw.unique hname, hv.null hd] at hnumber
    cases hnumber
  obtain ⟨d, hd, hfinite⟩ := hnot
  intro hq
  simp only [coordinates, List.mem_cons, List.not_mem_nil, or_false] at hd
  obtain rfl | rfl | rfl := hd
  · exact hnumber h.x hfinite hms.x hq.x
  · exact hnumber h.y hfinite hms.y hq.y
  · exact hnumber h.z hfinite hms.z hq.z

theorem Copies.written (h : p.Copies x y z) (depth : Nat) :
    List.Forall₂ (MemberWritten depth) p.members [("x", x), ("y", y), ("z", z)] :=
  .cons ⟨rfl, h.x.written depth⟩ <| .cons ⟨rfl, h.y.written depth⟩ <|
    .cons ⟨rfl, h.z.written depth⟩ .nil

end Point

/-! ## Texts of messages -/

/-- The numbers of a message. -/
def ServerMessage.coordinates : ServerMessage → List Double
  | spawn p | position p => p.coordinates
  | _ => []

/-- The numbers of a message. -/
def ClientMessage.coordinates : ClientMessage → List Double
  | lookAt p _ => p.coordinates
  | _ => []

/-- The text of a message spells an object that says the message, if its numbers are read back, and
that says no message, if one of them is not finite. -/
def Speaks {μ : Type} (Says : List (String × Json) → μ → Prop) (text : String)
    (coordinates : List Double) (m : μ) : Prop :=
  ∃ ms, Spelled text (.obj ms) ∧ ((∀ d ∈ coordinates, ReadBack d) → Says ms m) ∧
    ((∃ d ∈ coordinates, d.isFinite = false) → ∀ m', ¬Says ms m')

section Speaks

variable {μ : Type} {Says : List (String × Json) → μ → Prop}

theorem speaks_of_written {m : μ} {kind : String} {members ms : List (String × Json)}
    {coordinates : List Double} (hms : List.Forall₂ (MemberWritten 1) members ms)
    (hback : (∀ d ∈ coordinates, ReadBack d) → Says (("type", .str kind) :: ms) m)
    (hnot : (∃ d ∈ coordinates, d.isFinite = false) → ∀ m', ¬Says (("type", .str kind) :: ms) m') :
    Speaks Says (Json.obj (("type", .str kind) :: members)).compact coordinates m :=
  ⟨_, (written_obj (.cons ⟨rfl, written_str 1 kind⟩ hms)).spelled (by decide), hback, hnot⟩

theorem speaks_of_texts {m : μ} {kind : String} {members : List (String × Json)}
    (hms : List.Forall₂ (MemberWritten 1) members members)
    (hsaid : Says (("type", .str kind) :: members) m) :
    Speaks Says (Json.obj (("type", .str kind) :: members)).compact [] m :=
  speaks_of_written hms (fun _ => hsaid) (by simp)

end Speaks

theorem ServerMessage.speaks (m : ServerMessage) : Speaks Says m.encode m.coordinates m := by
  cases m with
  | login => exact speaks_of_texts .nil (.login rfl)
  | chat username message =>
    exact speaks_of_texts (.cons ⟨rfl, written_str ..⟩ (.cons ⟨rfl, written_str ..⟩ .nil))
      (.chat rfl rfl rfl)
  | kicked reason =>
    exact speaks_of_texts (.cons ⟨rfl, written_str ..⟩ .nil) (.kicked rfl rfl)
  | ended reason => exact speaks_of_texts (.cons ⟨rfl, written_str ..⟩ .nil) (.ended rfl rfl)
  | failed message => exact speaks_of_texts (.cons ⟨rfl, written_str ..⟩ .nil) (.failed rfl rfl)
  | position p =>
    obtain ⟨x, y, z, hp⟩ := p.exists_copies
    have hms : Point.Holds [("type", .str "position"), ("x", x), ("y", y), ("z", z)] x y z :=
      ⟨rfl, rfl, rfl⟩
    refine speaks_of_written (hp.written 1)
      (fun hback => .position rfl (hp.hasCoordinates hms hback)) fun hnot m' hsaid => ?_
    cases hsaid with
    | position _ hq => exact hp.not_hasCoordinates hms hnot _ hq
    | _ htag => exact absurd htag (by simp [Once, kind])
  | spawn p =>
    obtain ⟨x, y, z, hp⟩ := p.exists_copies
    have hms : Point.Holds [("x", x), ("y", y), ("z", z)] x y z := ⟨rfl, rfl, rfl⟩
    have hmember : MemberWritten 1 ("position", p.toJson)
        ("position", .obj [("x", x), ("y", y), ("z", z)]) := ⟨rfl, written_obj (hp.written 0)⟩
    refine speaks_of_written (.cons hmember .nil)
      (fun hback => .spawn rfl ⟨_, rfl, .object (hp.hasCoordinates hms hback)⟩)
      fun hnot m' hsaid => ?_
    cases hsaid with
    | spawn _ hq =>
      obtain ⟨v, hv, hpoint⟩ := hq
      obtain rfl : v = .obj [("x", x), ("y", y), ("z", z)] := hv.unique rfl
      cases hpoint with
      | object hq => exact hp.not_hasCoordinates hms hnot _ hq
    | _ htag => exact absurd htag (by simp [Once, kind])

theorem ClientMessage.speaks (m : ClientMessage) : Speaks Says m.encode m.coordinates m := by
  cases m with
  | hello username version =>
    exact speaks_of_texts (.cons ⟨rfl, written_str ..⟩ (.cons ⟨rfl, written_str ..⟩ .nil))
      (.hello rfl rfl rfl)
  | controlState control engaged =>
    exact speaks_of_texts (.cons ⟨rfl, written_str ..⟩ (.cons ⟨rfl, written_bool ..⟩ .nil))
      (.controlState rfl ⟨_, rfl, .name control⟩ rfl)
  | chat message => exact speaks_of_texts (.cons ⟨rfl, written_str ..⟩ .nil) (.chat rfl rfl)
  | lookAt p immediate =>
    obtain ⟨x, y, z, hp⟩ := p.exists_copies
    have hms : Point.Holds [("type", .str "lookAt"), ("x", x), ("y", y), ("z", z),
        ("immediate", .bool immediate)] x y z := ⟨rfl, rfl, rfl⟩
    refine speaks_of_written
      (List.rel_append (hp.written 1) (.cons ⟨rfl, written_bool 1 immediate⟩ .nil))
      (fun hback => .lookAt rfl (hp.hasCoordinates hms hback) rfl) fun hnot m' hsaid => ?_
    cases hsaid with
    | lookAt _ hq => exact hp.not_hasCoordinates hms hnot _ hq
    | _ htag => exact absurd htag (by simp [Once, kind])

/-! ## Both sides -/

/-- **What is written is read back**, if its numbers are, and refused for its shape if one of them
is not finite. -/
structure RoundTrips {μ : Type} (encode : μ → String) (decode? : String → Except FrameFlaw μ)
    (coordinates : μ → List Double) : Prop where
  back (m : μ) : (∀ d ∈ coordinates m, ReadBack d) → decode? (encode m) = .ok m
  refused (m : μ) : (∃ d ∈ coordinates m, d.isFinite = false) →
    ∃ e, decode? (encode m) = .error (.shape e)

namespace Union

theorem roundTrips {μ : Type} {u : Union μ} {Says : List (String × Json) → μ → Prop}
    (hu : u.Follows u.ofText? Says) {encode : μ → String} {coordinates : μ → List Double}
    (h : ∀ m, Speaks Says (encode m) (coordinates m) m) :
    RoundTrips encode u.ofText? coordinates where
  back m hback := by
    obtain ⟨ms, htext, hsaid, -⟩ := h m
    exact (hu.object htext m).mpr (hsaid hback)
  refused m hnot := by
    obtain ⟨ms, htext, -, hsaid⟩ := h m
    have hread := u.ofText?_of_spelled htext
    cases hv : u.ofText? (encode m) with
    | ok m' => exact absurd ((hu.object htext m').mp hv) (hsaid hnot m')
    | error flaw =>
      cases flaw with
      | text flaw => exact absurd (hread.symm.trans hv) (u.ofJson_ne_text _ flaw)
      | shape e => exact ⟨e, rfl⟩

/-- **Both sides read back what they write.**

* `back`: a message is read from its text as this very message, whatever the characters of its
  strings are; if it has numbers, they have to be finite, and the text of each to be read as this
  number.
* `refused`: a message with a number that is not finite is refused for its shape, and never read as
  another message; its text is JSON all the same, whatever its other numbers are. -/
theorem messages_round_trip :
    RoundTrips ServerMessage.encode ServerMessage.decode? ServerMessage.coordinates ∧
      RoundTrips ClientMessage.encode ClientMessage.decode? ClientMessage.coordinates :=
  ⟨roundTrips (follows ServerMessage.union_wellFormed ServerMessage.says_iff) ServerMessage.speaks,
    roundTrips (follows ClientMessage.union_wellFormed ClientMessage.says_iff) ClientMessage.speaks⟩

/-- Characters that are escaped and characters that are not, a number that is read back, and one
that is none. -/
theorem messages_round_trip_one_and_a_half :
    let half : Double := ⟨0x3ff8000000000000⟩
    let chat := ServerMessage.chat "a\"\\\x01" "é😀"
    let look := ClientMessage.lookAt ⟨half, half, half⟩ true
    ServerMessage.decode? chat.encode = .ok chat ∧ ClientMessage.decode? look.encode = .ok look ∧
      ∃ e, ServerMessage.decode? (ServerMessage.spawn ⟨half, .nan, half⟩).encode =
        .error (.shape e) := by
  intro half chat look
  have htext : Json.numberLayout.double half = ['1', '.', '5'] := by decide +kernel
  have hscale : Json.scale 15 (-1) = some half := by decide +kernel
  have hback : ReadBack half := by
    refine ⟨by decide, ?_⟩
    rw [htext]
    simp [Json.readNumber, Json.readWhole, Json.readFraction, Json.readExponent, Json.readDigits,
      Json.numberOf, Json.absorb, Json.digitValue, Json.wordMax, UInt64.size, hscale, bind,
      Except.bind]
  obtain ⟨hserver, hclient⟩ := messages_round_trip
  exact ⟨hserver.back chat (by simp [chat, ServerMessage.coordinates]),
    hclient.back look (by simpa [look, ClientMessage.coordinates, Point.coordinates] using hback),
    hserver.refused _ ⟨.nan, by simp [ServerMessage.coordinates, Point.coordinates], by decide⟩⟩

end Union

end BotFleet
