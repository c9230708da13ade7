/-!
# Topic filters

Topics and filters are read level by level, with `/` between the levels.  In a
filter the level `+` stands for any one level and `#` for all levels that are
left, which may be none.

`matchLevels` decides a match on lists of levels; it stops at the first `#`,
whether or not levels follow it.  `isValid` says which filters may be
subscribed: not empty, `#` only as the whole last level, `+` only as a whole
level.
-/

namespace TopicMesh.Filter

/-- The levels of a topic or filter; there is always one more than there are
separators. -/
def levels (s : String) : List String :=
  (s.toList.splitOn '/').map String.ofList

/-- Whether a topic with the given levels matches a filter with the given
levels. -/
def matchLevels : (filter topic : List String) → Bool
  | [], [] => true
  | [], _ :: _ => false
  | f :: filter, topic =>
    if f = "#" then true
    else
      match topic with
      | [] => false
      | t :: topic => (f = "+" || f = t) && matchLevels filter topic

/-- Whether a topic matches a filter. -/
def topicMatches (filter topic : String) : Bool :=
  matchLevels (levels filter) (levels topic)

/-- Whether a level holds no wildcard. -/
def isPlain (level : String) : Bool :=
  level.toList.all fun c => c != '#' && c != '+'

/-- Whether a list of levels may be subscribed. -/
def validLevels : List String → Bool
  | [] => true
  | [last] => last = "#" || last = "+" || isPlain last
  | level :: rest => (level = "+" || isPlain level) && validLevels rest

/-- Whether a filter may be subscribed. -/
def isValid (filter : String) : Bool :=
  filter != "" && validLevels (levels filter)

end TopicMesh.Filter
