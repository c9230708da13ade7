import TopicMesh.Bytes

/-!
# MessagePack values

Announcements travel in MessagePack.  `Pack` is what such bytes say, as far as a
reader of announcements can tell one value from another: texts and byte strings
are both runs of bytes, and an unsigned number keeps the width it was written in,
because only some widths may stand for a key.
-/

namespace TopicMesh

/-- A MessagePack value. -/
inductive Pack
  | nil
  | bool (b : Bool)
  /-- A number in an unsigned form; `width` is the number of bytes after the
  head, zero if the head holds the number. -/
  | unsigned (n width : Nat)
  /-- A number in a signed form. -/
  | signed (n : Int)
  /-- The bytes of a floating-point number, four or eight. -/
  | float (bits : Bytes)
  /-- A text or a byte string. -/
  | blob (bytes : Bytes)
  /-- Data of an application's own type. -/
  | extension (kind : UInt8) (data : Bytes)
  | array (items : List Pack)
  | map (entries : List (Pack × Pack))
deriving Inhabited

end TopicMesh
