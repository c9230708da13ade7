import TopicMesh.Double
import TopicMesh.Text.Numeral

/-!
# Doubles as text

A text denotes a double if it is, after an optional sign, `inf`, `infinity` or
`nan` in any case, or digits with at most one point among them and perhaps an
exponent behind an `e`.  There is at least one digit, before or after the point.
-/

namespace TopicMesh.Double

/-- The exponent at the end of a number; nothing means zero. -/
def exponent? : List Char → Option Int
  | [] => some 0
  | c :: rest => if c = 'e' ∨ c = 'E' then Text.signed? rest else none

/-- The decimal that a text without sign writes. -/
def decimal? (negative : Bool) (cs : List Char) : Option Decimal :=
  let whole := cs.takeWhile Char.isDigit
  let (places, rest) := match cs.dropWhile Char.isDigit with
    | '.' :: rest => (rest.takeWhile Char.isDigit, rest.dropWhile Char.isDigit)
    | rest => ([], rest)
  do
    let digits ← Text.natural? (whole ++ places)
    let exponent ← exponent? rest
    some ⟨negative, digits, exponent - places.length⟩

/-- The double that a text without sign denotes. -/
def unsigned? (negative : Bool) (cs : List Char) : Option Double :=
  match String.ofList (cs.map Char.toLower) with
  | "inf" => some (.infinite negative)
  | "infinity" => some (.infinite negative)
  | "nan" => some .notANumber
  | _ => (decimal? negative cs).map ofDecimal

/-- The double that a text denotes. -/
def ofText? (s : String) : Option Double :=
  match s.toList with
  | '-' :: rest => unsigned? true rest
  | '+' :: rest => unsigned? false rest
  | rest => unsigned? false rest

end TopicMesh.Double
