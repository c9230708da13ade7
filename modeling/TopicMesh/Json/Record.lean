import TopicMesh.Bytes
import TopicMesh.Json.Parser

/-!
# Records in JSON

A record with known fields is read from an **object**, whose members may come in
any order and may include others, or from an **array**, which lists the fields in
order and may leave out the last ones.  `slots?` finds the value of each field;
a field that is given twice spoils the record.

A record that is one of several kinds carries its kind in the member `type`, or
in the first item of the array (`tagged?`).
-/

namespace TopicMesh.Json

/-- The values of the members with a name. -/
def valuesOf (name : String) (members : List (Option String × Json)) : List Json :=
  (members.filter fun m => m.1 == some name).map Prod.snd

/-- The value of a field, if it is given; a field given twice is a fault. -/
def slot? (members : List (Option String × Json)) (name : String) : Option (Option Json) :=
  match valuesOf name members with
  | [] => some none
  | [value] => some (some value)
  | _ => none

/-- The values of the fields with the given names, in that order. -/
def slots? (names : List String) : Json → Option (List (Option Json))
  | object members =>
    if members.all fun m => m.1.isSome then names.mapM (slot? members) else none
  | array items =>
    if items.length ≤ names.length then
      some (items.map some ++ List.replicate (names.length - items.length) none)
    else none
  | _ => none

/-- The kind of a record, and the record without it. -/
def tagged? : Json → Option (String × Json)
  | object members =>
    match valuesOf "type" members with
    | [string (some kind)] => some (kind, object (members.filter fun m => m.1 != some "type"))
    | _ => none
  | array (string (some kind) :: rest) => some (kind, array rest)
  | _ => none

/-- The kind of the record that a text is, and the record without it.  The kind
may come last, so the record is kept whole until it is known. -/
def taggedText? (s : String) : Option (String × Json) := do
  let j ← parse? s
  if j.isKeepable then j.tagged? else none

/-- Whether a value is a record without fields. -/
def isBare : Json → Bool
  | object _ => true
  | array items => items.isEmpty
  | _ => false

/-! ## Fields -/

/-- A field that has to be given. -/
def required {α : Type} (read : Json → Option α) (slot : Option Json) : Option α :=
  slot.bind read

/-- A field that has a value when it is not given. -/
def defaulted {α : Type} (absent : α) (read : Json → Option α) : Option Json → Option α
  | none => some absent
  | some value => read value

/-- A field that may be missing, or null. -/
def optional {α : Type} (read : Json → Option α) : Option Json → Option (Option α)
  | none => some none
  | some null => some none
  | some value => (read value).map some

/-- The text of a string. -/
def text? : Json → Option String
  | string s => s
  | _ => none

/-- The text of a record's only field. -/
def soleText? (name : String) (fields : Json) : Option String :=
  match slots? [name] fields with
  | some [slot] => required text? slot
  | _ => none

/-- The truth value of a boolean. -/
def bool? : Json → Option Bool
  | bool b => some b
  | _ => none

/-- An integer that is at least `low` and below `high`. -/
def intWithin? (low high : Int) : Json → Option Int
  | integer n => if low ≤ n ∧ n < high then some n else none
  | _ => none

/-- An integer of 32 bits without sign. -/
def uint32? (j : Json) : Option UInt32 :=
  (intWithin? 0 4294967296 j).map fun n => UInt32.ofNat n.toNat

/-- An integer of 64 bits with sign. -/
def int64? (j : Json) : Option Int64 :=
  (intWithin? (-9223372036854775808) 9223372036854775808 j).map Int64.ofInt

/-- A byte. -/
def byte? (j : Json) : Option UInt8 :=
  (intWithin? 0 256 j).map fun n => UInt8.ofNat n.toNat

/-- Bytes, as an array of their numbers. -/
def bytes? : Json → Option Bytes
  | array items => items.mapM byte?
  | _ => none

/-- The array of the numbers of some bytes. -/
def ofBytes (bytes : Bytes) : Json :=
  array (bytes.map fun b => integer b.toNat)

/-- The members that are present. -/
def members (fields : List (Option (String × Json))) : List (String × Json) :=
  fields.filterMap id

end TopicMesh.Json
