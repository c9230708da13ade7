import TopicMesh.Double

/-!
# JSON values

`Json` is what a JSON text says.  Two things in a text can be well-formed and
still denote nothing: a string whose escapes hold half a surrogate pair, and a
number too large for a double.  A text that only skips over such a value does not
mind; a text that keeps it does.  So the value keeps both apart: a string is
`none` when it denotes no text, and `isSound` says that nothing of the kind
occurs.

The members of an object keep their order and their repetitions.
-/

namespace TopicMesh

/-- A JSON value. -/
inductive Json
  | null
  | bool (b : Bool)
  /-- A number written without fraction and exponent, other than `-0`. -/
  | integer (n : Int)
  /-- Any other number, as much of it as 64 bits keep. -/
  | decimal (d : Decimal)
  /-- A string; `none` if its escapes denote no text. -/
  | string (s : Option String)
  | array (items : List Json)
  | object (members : List (Option String × Json))
deriving Inhabited

namespace Json

/-- A string value. -/
abbrev text (s : String) : Json := .string (some s)

/-- An object of members with the given names. -/
def record (members : List (String × Json)) : Json :=
  .object (members.map fun (name, value) => (some name, value))

mutual

/-- How deep arrays and objects are nested. -/
def depth : Json → Nat
  | array items => depthOfItems items + 1
  | object members => depthOfMembers members + 1
  | _ => 0

/-- The greatest depth of some items. -/
def depthOfItems : List Json → Nat
  | [] => 0
  | item :: rest => max item.depth (depthOfItems rest)

/-- The greatest depth of some members. -/
def depthOfMembers : List (Option String × Json) → Nat
  | [] => 0
  | (_, value) :: rest => max value.depth (depthOfMembers rest)

end

mutual

/-- Whether every string denotes a text and every number is within the range of
doubles. -/
def isSound : Json → Bool
  | null => true
  | bool _ => true
  | integer n => n.natAbs < UInt64.size || (Double.scaled (.ofInt n)).isFinite
  | decimal d => (Double.scaled d).isFinite
  | string s => s.isSome
  | array items => itemsSound items
  | object members => membersSound members

/-- Whether all items are sound. -/
def itemsSound : List Json → Bool
  | [] => true
  | item :: rest => item.isSound && itemsSound rest

/-- Whether all members are sound, names included. -/
def membersSound : List (Option String × Json) → Bool
  | [] => true
  | (name, value) :: rest => name.isSome && value.isSound && membersSound rest

end

/-- How deep a value may be nested that is kept whole. -/
def maxDepth : Nat := 127

/-- Whether a value can be kept whole. -/
def isKeepable (j : Json) : Bool :=
  j.isSound && j.depth ≤ maxDepth

end Json

end TopicMesh
