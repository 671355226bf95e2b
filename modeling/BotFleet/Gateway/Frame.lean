import BotFleet.Gateway.Field
import BotFleet.Json.Reader

/-!
# Tagged frames

A frame is an object whose member `type` names a variant, or a list that begins with that name. The
name is judged as soon as it is read; everything else is read to the closing bracket first, and only
then compared with the fields of the variant.

* `FrameFlaw`: why a text is no frame of the wanted kind;
* `Variant`, `Union`: a variant with its fields, and the variants of a kind of message;
* `Union.readTag`: the variant that a frame names;
* `Union.ofText?`: the message of a whole text.
-/

namespace BotFleet

/-- Why a text is no message: it is not JSON, or it is JSON of another shape. -/
inductive FrameFlaw where
  | text (flaw : Flaw)
  | shape (mismatch : Mismatch)
deriving DecidableEq, Inhabited

/-- A variant of a kind of message. -/
structure Variant (μ : Type) where
  name : String
  /-- What the variant is called in a mismatch. -/
  title : String
  fields : List Field
  build : Row fields → μ

/-- The variants of a kind of message. -/
structure Union (μ : Type) where
  title : String
  variants : List (Variant μ)

/-- What a frame holds besides its tag. -/
inductive Body where
  | members (ms : List (String × Json))
  | items (vs : List Json)

/-- The name of the member that names the variant. -/
def tagName : String := "type"

/-- A flaw of a text is a flaw of the frame. -/
def asFrame {α : Type} : Except Flaw α → Except FrameFlaw α
  | .ok a => .ok a
  | .error e => .error (.text e)

/-- A mismatch of a value is a flaw of the frame. -/
def asShape {α : Type} : Except Mismatch α → Except FrameFlaw α
  | .ok a => .ok a
  | .error e => .error (.shape e)

namespace Variant

variable {μ : Type}

/-- The message of a variant with a given body; a variant without fields looks at no member. -/
def ofBody (v : Variant μ) (title : String) : Body → Except Mismatch μ
  | .members ms =>
    if v.fields.isEmpty then (Row.ofMembers v.fields []).map v.build
    else (Row.ofMembers v.fields ms).map v.build
  | .items vs => (Row.ofItems s!"struct variant {title}::{v.title}" v.fields vs).map v.build

end Variant

namespace Union

variable {μ : Type}

/-- Which variant a frame names. -/
abbrev Tag (u : Union μ) : Type := Fin u.variants.length

/-- The variant of a name. -/
def find (u : Union μ) (name : String) : Except Mismatch u.Tag :=
  match u.variants.findFinIdx? fun v => v.name = name with
  | some tag => .ok tag
  | none => .error (.unknownVariant name (u.variants.map fun v => v.name))

/-- The value of a tag that is no string: lists and objects are not read any further. -/
def readOther (cs : List Char) : Except Flaw (Json × List Char) :=
  match cs with
  | '[' :: rest => .ok (.arr [], rest)
  | '\x7b' :: rest => .ok (.obj [], rest)
  | cs => Json.readValue 0 cs

/-- The variant that a frame names, and the text after its name. -/
def readTag (u : Union μ) (cs : List Char) : Except FrameFlaw (u.Tag × List Char) := do
  let (v, rest) ← asFrame (readOther (Json.skipBlanks cs))
  match v with
  | .str name =>
    let tag ← asShape (u.find name)
    .ok (tag, rest)
  | v => .error (.shape (.wrongType v.described "variant identifier"))

/-- The rest of an object, with the variant if it has been named and the members `seen`, the last
of them first. -/
def readMembers (u : Union μ) (tag : Option u.Tag) (first : Bool)
    (seen : List (String × Json)) :
    Nat → List Char → Except FrameFlaw (u.Tag × Body × List Char)
  | 0, _ => .error (.text .ended)
  | fuel + 1, cs => do
    match ← asFrame (Json.nextMember first cs) with
    | .closed rest =>
      match tag with
      | some tag => .ok (tag, .members seen.reverse, rest)
      | none => .error (.shape (.missingField tagName))
    | .item name rest =>
      if name = tagName then
        match tag with
        | some _ => .error (.shape (.duplicateField tagName))
        | none =>
          let rest ← asFrame (Json.expectColon rest)
          let (tag, rest) ← u.readTag rest
          readMembers u (some tag) false seen fuel rest
      else
        let rest ← asFrame (Json.expectColon rest)
        let (value, rest) ← asFrame (Json.readValue (Json.maxDepth - 1) rest)
        readMembers u tag false ((name, value) :: seen) fuel rest

/-- A list that begins with the name of a variant. -/
def readList (u : Union μ) (cs : List Char) :
    Except FrameFlaw (u.Tag × Body × List Char) := do
  match ← asFrame (Json.nextItem true cs) with
  | .closed _ => .error (.shape (.missingField tagName))
  | .item () rest =>
    let (tag, rest) ← u.readTag rest
    let (items, rest) ←
      asFrame (Json.readItems (Json.maxDepth - 1) false [] (Json.stepsFor rest) rest)
    .ok (tag, .items items, rest)

/-- A frame at the start of a text. -/
def readFrame (u : Union μ) (cs : List Char) :
    Except FrameFlaw (u.Tag × Body × List Char) := do
  match Json.skipBlanks cs with
  | '\x7b' :: rest => u.readMembers none true [] (Json.stepsFor rest) rest
  | '[' :: rest => u.readList rest
  | cs =>
    let (v, _) ← asFrame (Json.readValue Json.maxDepth cs)
    .error (.shape (.wrongType v.described s!"internally tagged enum {u.title}"))

/-- The message of a whole text. -/
def ofText? (u : Union μ) (text : String) : Except FrameFlaw μ := do
  let (tag, body, rest) ← u.readFrame text.toList
  let message ← asShape ((u.variants.get tag).ofBody u.title body)
  asFrame (Json.expectEnd rest)
  .ok message

end Union

end BotFleet
