import TopicMesh.Double.Numeral
import TopicMesh.Settings.Value

/-!
# Sources of settings

Settings are written in a file and in environment variables.

The **file** is a JSON object of sections; a mark of byte order in front of it is
no part of it.

A **variable** counts if its name, in lower case, starts with `meshsub_`.  In the
rest of the name two underscores separate the section from the field.  Its value
is a text that may write a truth value or a number.

Names at the outermost level are paths: a point separates the section from the
field there as well, and the place of an item stands in brackets behind the name
of its list.  What is no path is a name like any other.
-/

namespace TopicMesh.Settings

/-! ## Paths -/

/-- Whether a character may occur in a name of a path. -/
def isPathChar (c : Char) : Bool :=
  c.isAlphanum || c == '_' || c == '-'

/-- Whether a character may stand around the number of a place. -/
def isGap (c : Char) : Bool :=
  c == ' ' || c == '\t'

/-- The place that the text between two brackets writes. -/
def place? (cs : List Char) : Option Int :=
  let trimmed := (cs.dropWhile isGap).reverse.dropWhile isGap |>.reverse
  if trimmed.head? = some '+' then none else (Text.signed? trimmed).filter Value.isInt64

/-- The steps that a text writes, each name behind a point.  Every step takes a
character, so `fuel` counts down from their number. -/
def steps? : (fuel : Nat) → List Char → Option (List Value.Step)
  | _, [] => some []
  | fuel + 1, '.' :: cs =>
    let name := cs.takeWhile isPathChar
    if name.isEmpty then none
    else (steps? fuel (cs.dropWhile isPathChar)).map (.name (String.ofList name) :: ·)
  | fuel + 1, '[' :: cs =>
    match cs.dropWhile (· != ']') with
    | [] => none
    | _ :: rest => do
      let place ← place? (cs.takeWhile (· != ']'))
      let others ← steps? fuel rest
      some (.place place :: others)
  | _, _ => none

/-- The path that a name writes, or the whole name if it writes none. -/
def path (name : String) : List Value.Step :=
  (steps? (name.length + 1) ('.' :: name.toList)).getD [.name name]

/-- Lays what an outermost name gives over what is known. -/
def assign (known : Value) (name : String) (value : Value) : Value :=
  known.change (fun old => old.merge value) (path name)

/-! ## The file -/

/-- The text of a file without a mark of byte order. -/
def withoutMark (text : String) : String :=
  match text.toList with
  | '\uFEFF' :: rest => String.ofList rest
  | _ => text

/-- What the text of a file gives, if it is a JSON object. -/
def ofFile? (text : String) : Option Value := do
  let json ← Json.parse? (withoutMark text)
  match Value.ofJson json with
  | .group members =>
    if json.isKeepable then
      some (members.foldl (fun known (name, value) => assign known name value) (.group []))
    else none
  | _ => none

/-! ## The environment -/

/-- What the names of the variables start with. -/
def variableStart : String := "meshsub_"

/-- A name in which points stand for the pairs of underscores. -/
def dotted : List Char → List Char
  | '_' :: '_' :: rest => '.' :: dotted rest
  | c :: rest => c :: dotted rest
  | [] => []

/-- What a variable sets, if it counts. -/
def setting? (variableName : String) : Option String :=
  let name := (Value.lowerCase variableName).toList
  let start := variableStart.toList
  if start.isPrefixOf name then some (String.ofList (dotted (name.drop start.length)))
  else none

/-- What the text of a variable gives. -/
def ofVariable (text : String) : Value :=
  match Value.lowerCase text with
  | "true" => .truth true
  | "false" => .truth false
  | _ =>
    match (Text.signed? text.toList).filter Value.isInt64 with
    | some n => .whole n
    | none =>
      match Double.ofText? text with
      | some x => .real x
      | none => .text text

/-- Lays the variables of an environment over what is known. -/
def withVariables (known : Value) (environment : List (String × String)) : Value :=
  environment.foldl (fun known (name, text) =>
    match setting? name with
    | some setting => assign known setting (ofVariable text)
    | none => known) known

end TopicMesh.Settings
