import TopicMesh.Double.Shortest
import TopicMesh.Json.Parser
import TopicMesh.KeyMap
import TopicMesh.Text.Numeral

/-!
# Values of settings

Settings come from sources that write the same value in different ways: a port
may be given as a number, as a text of digits, even as `true`.  A `Value` is what
a source gives, in a group of named values or alone, and `natural?`, `truth?` and
`text?` read it as what a setting needs.  A value that is not set leaves the
setting as it is.

`merge` lays one source over another: groups are merged member by member, and
anything else replaces what was there.  `change` reaches a part of a value along a
path of names and places.
-/

namespace TopicMesh.Settings

/-- What a source gives for a setting, or for a section of settings. -/
inductive Value
  /-- No value: the setting keeps the value it has. -/
  | unset
  | truth (b : Bool)
  | whole (n : Int)
  | real (x : Double)
  | text (s : String)
  | list (items : List Value)
  | group (members : List (String × Value))
deriving Inhabited

namespace Value

/-! ## Groups -/

/-- The members of a group. -/
def members : Value → List (String × Value)
  | group members => members
  | _ => []

/-- The member with a name; a name that is not there is not set. -/
def member (members : List (String × Value)) (name : String) : Value :=
  (members.lookup name).getD unset

/-- Gives a name a value, in place of the value it had. -/
def put (members : List (String × Value)) (name : String) (value : Value) :
    List (String × Value) :=
  (name, value) :: members.filter fun m => m.1 != name

mutual

/-- One value laid over another. -/
def merge (old : Value) : Value → Value
  | group members => group (mergeMembers old.members members)
  | value => value

/-- Members laid over others, one after the other. -/
def mergeMembers (old : List (String × Value)) : List (String × Value) → List (String × Value)
  | [] => old
  | (name, value) :: rest => mergeMembers (put old name ((member old name).merge value)) rest

end

/-! ## Paths -/

/-- The items of a list. -/
def items : Value → List Value
  | list items => items
  | _ => []

/-- Some items with room for a place, and the number of that place among them.
Places below zero count from the end.  The items that are missing are not set. -/
def room (items : List Value) (place : Int) : List Value × Nat :=
  if 0 ≤ place then
    (items ++ List.replicate (place.toNat + 1 - items.length) unset, place.toNat)
  else
    (List.replicate (place.natAbs - items.length) unset ++ items, items.length - place.natAbs)

/-- A step from a value to a part of it. -/
inductive Step
  /-- To the member with a name. -/
  | name (name : String)
  /-- To the item at a place. -/
  | place (place : Int)
deriving DecidableEq, Repr

/-- Changes the part at the end of a path.  What is no group, or no list, where
the path needs one is replaced. -/
def change (f : Value → Value) : List Step → Value → Value
  | [], value => f value
  | .name name :: rest, value =>
    group (put value.members name (change f rest (member value.members name)))
  | .place place :: rest, value =>
    let (items, i) := room value.items place
    list (items.modify i (change f rest))

/-! ## Sections -/

/-- The values of the fields of a section.  A list gives them in order, and must
give them all. -/
def fields? (names : List String) : Value → Option (List Value)
  | unset => some (names.map fun _ => unset)
  | group members => some (names.map (member members))
  | list items => if names.length ≤ items.length then some (items.take names.length) else none
  | _ => none

/-! ## From JSON -/

/-- Whether an integer has 64 bits with sign. -/
def isInt64 (n : Int) : Bool :=
  -9223372036854775808 ≤ n && n ≤ 9223372036854775807

/-- Whether an integer has 64 bits, with sign or without. -/
def has64Bits (n : Int) : Bool :=
  isInt64 n || (0 ≤ n && n.toNat < UInt64.size)

mutual

/-- The value that a JSON value gives.  An integer of more than 64 bits becomes a
double. -/
def ofJson : Json → Value
  | .null => unset
  | .bool b => truth b
  | .integer n => if has64Bits n then whole n else real (.scaled (.ofInt n))
  | .decimal d => real (.scaled d)
  | .string s => text (s.getD "")
  | .array items => list (ofItems items)
  | .object members => group (ofMembers [] members)

/-- The values of some items. -/
def ofItems : List Json → List Value
  | [] => []
  | item :: rest => ofJson item :: ofItems rest

/-- The values of some members; of members with the same name the last counts. -/
def ofMembers (seen : List (String × Value)) :
    List (Option String × Json) → List (String × Value)
  | [] => seen
  | (name, item) :: rest => ofMembers (put seen (name.getD "") (ofJson item)) rest

end

/-! ## As settings -/

/-- A text in lower case, as far as it matters: the capital letters of ASCII, and
the Kelvin sign, are the characters whose lower case is in ASCII. -/
def lowerCase (s : String) : String :=
  s.map fun c => if c = '\u212A' then 'k' else c.toLower

/-- The truth value that a word stands for. -/
def truthWord? (s : String) : Option Bool :=
  let word := lowerCase s
  if word ∈ ["true", "on", "yes"] then some true
  else if word ∈ ["false", "off", "no"] then some false
  else none

/-- A value as a natural number of 64 bits. -/
def natural64? : Value → Option Nat
  | truth b => some b.toNat
  | whole n => if 0 ≤ n then some n.toNat else none
  | real x => some (x.toNat (UInt64.size - 1))
  | text s =>
    match truthWord? s with
    | some b => some b.toNat
    | none => (Text.unsigned? s.toList).filter (· < UInt64.size)
  | _ => none

/-- A value as a natural number below a bound that 64 bits can reach. -/
def natural? (bound : Nat) (v : Value) : Option Nat :=
  v.natural64?.filter (· < bound)

/-- A value as a truth value. -/
def truth? : Value → Option Bool
  | truth b => some b
  | whole n => some (n != 0)
  | real x => some !x.isZero
  | text s =>
    if s = "1" then some true else if s = "0" then some false else truthWord? s
  | _ => none

/-- A value as a text. -/
def text? : Value → Option String
  | truth b => some (if b then "true" else "false")
  | whole n => some (toString n)
  | real x => some x.text
  | text s => some s
  | _ => none

/-- Reads a value if it is set, and else takes another. -/
def getD {α : Type} (read : Value → Option α) (other : α) : Value → Option α
  | unset => some other
  | v => read v

end Value

end TopicMesh.Settings
