/-!
# White space

`isBlank` is the Unicode property White_Space; `words` cuts a text at runs of
such characters.
-/

namespace TopicMesh.Text

/-- Whether a character has the property White_Space. -/
def isBlank (c : Char) : Bool :=
  let n := c.toNat
  (0x09 ≤ n && n ≤ 0x0D) || n == 0x20 || n == 0x85 || n == 0xA0 || n == 0x1680 ||
    (0x2000 ≤ n && n ≤ 0x200A) || n == 0x2028 || n == 0x2029 || n == 0x202F || n == 0x205F ||
    n == 0x3000

/-- The maximal runs of characters without white space. -/
def words (s : String) : List String :=
  ((s.toList.splitOnP isBlank).filter fun word => !word.isEmpty).map String.ofList

end TopicMesh.Text
