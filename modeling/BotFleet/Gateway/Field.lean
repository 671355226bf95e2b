import BotFleet.Json.Printer
import BotFleet.Point
import BotFleet.Text.Quoted

/-!
# Fields of messages

A record is read from the members of an object, in any order and among others, or from the items of
a list in declaration order.

* `Mismatch`, `Mismatch.message`: why well-formed JSON is not what was wanted;
* `Field`, `Row`: a named field with a reader, and the values of a list of fields;
* `Row.ofMembers`, `Row.ofItems`: the values of the fields in an object and in a list;
* `Field.text`, `Field.number`, `Field.flag`, `Field.point`: the kinds of fields.
-/

namespace BotFleet

/-- Why well-formed JSON is not what was wanted. -/
inductive Mismatch where
  | missingField (name : String)
  | duplicateField (name : String)
  | unknownVariant (name : String) (known : List String)
  | wrongType (found wanted : String)
  | wrongLength (found : Nat) (wanted : String)
  | wrongValue (found wanted : String)
deriving DecidableEq, Inhabited

namespace Mismatch

/-- A number of things, in words. -/
def counted (n : Nat) (thing : String) : String := if n = 1 then s!"1 {thing}" else s!"{n} {thing}s"

/-- The text of a mismatch. -/
def message : Mismatch → String
  | missingField name => "missing field `" ++ name ++ "`"
  | duplicateField name => "duplicate field `" ++ name ++ "`"
  | unknownVariant name known =>
    let names := ", ".intercalate (known.map fun k => "`" ++ k ++ "`")
    "unknown variant `" ++ name ++ "`, expected " ++
      (if known.length = 1 then names else "one of " ++ names)
  | wrongType found wanted => s!"invalid type: {found}, expected {wanted}"
  | wrongLength found wanted => s!"invalid length {found}, expected {wanted}"
  | wrongValue found wanted => s!"invalid value: {found}, expected {wanted}"

end Mismatch

namespace Json

/-- What a value is called in a mismatch. -/
def described : Json → String
  | .null => "null"
  | .bool b => "boolean `" ++ (if b then "true" else "false") ++ "`"
  | .int n => "integer `" ++ String.ofList (ofInt n) ++ "`"
  | .double d => "floating point `" ++ String.ofList (numberLayout.double d) ++ "`"
  | .str s => "string " ++ Text.quoted s
  | .arr _ => "sequence"
  | .obj _ => "map"

end Json

/-- A field of a record: its name, and how its value is read. -/
structure Field where
  name : String
  Value : Type
  read : Json → Except Mismatch Value

/-- The values of a list of fields. -/
def Row : List Field → Type
  | [] => Unit
  | f :: rest => f.Value × Row rest

/-- The values of a list of fields as far as they are known. -/
def Slots : List Field → Type
  | [] => Unit
  | f :: rest => Option f.Value × Slots rest

namespace Slots

/-- No value is known. -/
def none : (fields : List Field) → Slots fields
  | [] => ()
  | _ :: rest => (Option.none, none rest)

/-- Take a member into account; a field occurs once, and a name that is none of them is passed
over. -/
def offer : (fields : List Field) → Slots fields → String → Json → Except Mismatch (Slots fields)
  | [], slots, _, _ => .ok slots
  | f :: rest, (value, slots), name, v =>
    if f.name = name then
      match value with
      | some _ => .error (.duplicateField name)
      | Option.none => (f.read v).map fun x => (some x, slots)
    else (offer rest slots name v).map fun slots => (value, slots)

/-- The values, if all are known. -/
def all : (fields : List Field) → Slots fields → Except Mismatch (Row fields)
  | [], _ => .ok ()
  | f :: rest, (value, slots) =>
    match value with
    | Option.none => .error (.missingField f.name)
    | some x => (all rest slots).map fun row => (x, row)

end Slots

namespace Row

/-- The values of the fields among the members of an object. -/
def ofMembers (fields : List Field) (members : List (String × Json)) :
    Except Mismatch (Row fields) := do
  let slots ← members.foldlM (fun slots (name, v) => slots.offer fields name v) (Slots.none fields)
  slots.all fields

/-- The values of the fields at the start of a list, of which `taken` items come before, and the
items left over. -/
def takeItems (wanted : String) :
    (fields : List Field) → Nat → List Json → Except Mismatch (Row fields × List Json)
  | [], _, items => .ok ((), items)
  | _ :: _, taken, [] => .error (.wrongLength taken wanted)
  | f :: rest, taken, v :: items => do
    let x ← f.read v
    let (row, items) ← takeItems wanted rest (taken + 1) items
    .ok ((x, row), items)

/-- The values of the fields in a list that holds nothing else. -/
def ofItems (title : String) (fields : List Field) (items : List Json) :
    Except Mismatch (Row fields) := do
  let elements := Mismatch.counted fields.length "element"
  let (row, left) ← takeItems s!"{title} with {elements}" fields 0 items
  if left.isEmpty then .ok row
  else .error (.wrongLength items.length s!"{elements} in sequence")

end Row

namespace Field

def wrong {α : Type} (wanted : String) (v : Json) : Except Mismatch α :=
  .error (.wrongType v.described wanted)

/-- A field that holds a string. -/
def text (name : String) : Field where
  name
  Value := String
  read
    | .str s => .ok s
    | v => wrong "a string" v

/-- A field that holds a number; whole numbers are rounded to doubles. -/
def number (name : String) : Field where
  name
  Value := Double
  read
    | .int n => .ok (Double.ofInt n)
    | .double d => .ok d
    | v => wrong "f64" v

/-- A field that holds a truth value. -/
def flag (name : String) : Field where
  name
  Value := Bool
  read
    | .bool b => .ok b
    | v => wrong "a boolean" v

/-- The coordinates of a point. -/
def coordinates : List Field := [number "x", number "y", number "z"]

/-- The point of three coordinates. -/
def toPoint : Row coordinates → Point
  | (x, y, z, ()) => ⟨x, y, z⟩

/-- A field that holds a point, as an object or as a list of three numbers. -/
def point (name : String) : Field where
  name
  Value := Point
  read
    | .obj members => (Row.ofMembers coordinates members).map toPoint
    | .arr items => (Row.ofItems "struct Vec3" coordinates items).map toPoint
    | v => wrong "struct Vec3" v

end Field

end BotFleet
