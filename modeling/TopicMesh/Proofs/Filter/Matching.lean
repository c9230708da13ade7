import TopicMesh.Filter
import TopicMesh.Proofs.Sequence.Places
import Mathlib.Data.List.Forall2

/-!
# What filters match

A filter is read level by level.  Without a final `#` it **covers** the topics of as many
levels of which each is the filter's own, or anything where the filter has `+`; with one it
covers the topics that begin in that way, whatever follows (`Covers`).

`matchLevels` walks two lists of levels at once and stops at a `#`.  On valid filters, where
`#` stands at the end only, that is the same (`topicMatches_iff_covers`).  From levels to
texts and back nothing is lost (`ofLevels_levels`, `levels_ofLevels`), so a filter without
wildcards matches itself alone; and wildcards only ever let in more
(`matchLevels_set_plus`, `matchLevels_take_hash`).
-/

namespace TopicMesh.Filter

/-! ## Levels and texts -/

/-- The text of some levels. -/
def ofLevels (ls : List String) : String :=
  String.ofList (['/'].intercalate (ls.map String.toList))

theorem ofLevels_levels (s : String) : ofLevels (levels s) = s := by
  unfold ofLevels levels
  have back : String.toList ∘ String.ofList = id := funext fun _ => String.toList_ofList
  rw [List.map_map, back, List.map_id, List.intercalate_splitOn, String.ofList_toList]

theorem levels_injective {s t : String} (same : levels s = levels t) : s = t := by
  rw [← ofLevels_levels s, same, ofLevels_levels]

theorem levels_ne_nil (s : String) : levels s ≠ [] :=
  fun none => List.splitOn_ne_nil '/' s.toList (List.map_eq_nil_iff.1 none)

/-- Levels that hold no separator are read back from their text. -/
theorem levels_ofLevels {ls : List String} (some_level : ls ≠ [])
    (apart : ∀ l ∈ ls, '/' ∉ l.toList) : levels (ofLevels ls) = ls := by
  have back : String.ofList ∘ String.toList = id := funext fun _ => String.ofList_toList
  unfold ofLevels levels
  rw [String.toList_ofList, List.splitOn_intercalate, List.map_map, back, List.map_id]
  · intro part is_part
    obtain ⟨l, is_level, rfl⟩ := List.mem_map.1 is_part
    exact apart l is_level
  · exact fun none => some_level (List.map_eq_nil_iff.1 none)

/-- No level holds the separator. -/
theorem slash_not_mem_level {s level : String} (is_level : level ∈ levels s) :
    '/' ∉ level.toList := by
  obtain ⟨part, is_part, rfl⟩ := List.mem_map.1 is_level
  rw [String.toList_ofList]
  intro within
  exact absurd (not_of_mem_splitOnP is_part '/' within) (by decide)

/-! ## What is meant, and what is decided -/

/-- Whether the levels of a filter stand for those of a topic, as far as both go: each is
`+` or the topic's own. -/
def Alongside (filter topic : List String) : Prop :=
  ∀ f t, (f, t) ∈ filter.zip topic → f = "+" ∨ f = t

/-- **What a filter is meant to match**, both read level by level. -/
inductive Covers (filter topic : List String) : Prop
  /-- Without a final `#`: topics of as many levels. -/
  | whole (closed : filter.getLast? ≠ some "#") (as_long : filter.length = topic.length)
      (along : Alongside filter topic)
  /-- With a final `#`: topics of at least as many levels as stand before it. -/
  | beginning (before : List String) (ends : filter = before ++ ["#"])
      (long : before.length ≤ topic.length) (along : Alongside before topic)

theorem alongside_cons {f t : String} {filter topic : List String} :
    Alongside (f :: filter) (t :: topic) ↔ (f = "+" ∨ f = t) ∧ Alongside filter topic := by
  unfold Alongside
  simp only [List.zip_cons_cons, List.mem_cons, Prod.mk.injEq]
  constructor
  · intro along
    exact ⟨along f t (.inl ⟨rfl, rfl⟩), fun f' t' later => along f' t' (.inr later)⟩
  · rintro ⟨first, others⟩ f' t' (⟨rfl, rfl⟩ | later)
    · exact first
    · exact others f' t' later

theorem matchLevels_hash (after topic : List String) :
    matchLevels ("#" :: after) topic = true := by
  cases topic <;> rfl

/-- A level that is not `#` takes one level off the topic. -/
theorem matchLevels_cons_iff {f : String} {filter topic : List String} (other : f ≠ "#") :
    matchLevels (f :: filter) topic = true ↔
      ∃ t rest, topic = t :: rest ∧ (f = "+" ∨ f = t) ∧ matchLevels filter rest = true := by
  cases topic with
  | nil => simp [matchLevels, other]
  | cons t rest =>
    simp only [matchLevels, other, if_false, Bool.and_eq_true, Bool.or_eq_true, decide_eq_true_eq,
      List.cons.injEq]
    constructor
    · intro matched
      exact ⟨t, rest, ⟨rfl, rfl⟩, matched⟩
    · rintro ⟨_, _, ⟨rfl, rfl⟩, matched⟩
      exact matched

/-- Levels without `#` match as many levels that they stand for. -/
theorem matchLevels_iff_of_no_hash {filter topic : List String} (no_hash : "#" ∉ filter) :
    matchLevels filter topic = true ↔ filter.length = topic.length ∧ Alongside filter topic := by
  induction filter generalizing topic with
  | nil => cases topic <;> simp [matchLevels, Alongside]
  | cons f filter ih =>
    rw [List.mem_cons, not_or] at no_hash
    obtain ⟨other, no_hash⟩ := no_hash
    rw [matchLevels_cons_iff (Ne.symm other)]
    constructor
    · rintro ⟨t, rest, rfl, first, matched⟩
      obtain ⟨as_long, along⟩ := (ih no_hash).1 matched
      exact ⟨congrArg Nat.succ as_long, alongside_cons.2 ⟨first, along⟩⟩
    · rintro ⟨as_long, along⟩
      cases topic with
      | nil => cases as_long
      | cons t rest =>
        obtain ⟨first, along⟩ := alongside_cons.1 along
        exact ⟨t, rest, rfl, first, (ih no_hash).2 ⟨Nat.succ.inj as_long, along⟩⟩

/-- Levels up to the first `#` match whatever begins with levels that they stand for. -/
theorem matchLevels_hash_iff {before after topic : List String} (no_hash : "#" ∉ before) :
    matchLevels (before ++ "#" :: after) topic = true ↔
      before.length ≤ topic.length ∧ Alongside before topic := by
  induction before generalizing topic with
  | nil => simp [matchLevels_hash, Alongside]
  | cons f before ih =>
    rw [List.mem_cons, not_or] at no_hash
    obtain ⟨other, no_hash⟩ := no_hash
    rw [List.cons_append, matchLevels_cons_iff (Ne.symm other)]
    constructor
    · rintro ⟨t, rest, rfl, first, matched⟩
      obtain ⟨long, along⟩ := (ih no_hash).1 matched
      exact ⟨Nat.succ_le_succ long, alongside_cons.2 ⟨first, along⟩⟩
    · rintro ⟨long, along⟩
      cases topic with
      | nil => cases long
      | cons t rest =>
        obtain ⟨first, along⟩ := alongside_cons.1 along
        exact ⟨t, rest, rfl, first, (ih no_hash).2 ⟨Nat.le_of_succ_le_succ long, along⟩⟩

/-! ## Valid levels -/

theorem validLevels_cons {level : String} {rest : List String} :
    validLevels (level :: rest) = true ↔
      (rest = [] ∧ level = "#" ∨ level = "+" ∨ isPlain level = true) ∧ validLevels rest = true := by
  cases rest with
  | nil => simp [validLevels, or_assoc]
  | cons next rest => simp [validLevels]

/-- In valid levels `#` is the last one, if there is any. -/
theorem hash_at_end {ls : List String} (valid : validLevels ls = true) :
    "#" ∉ ls ∨ ∃ before, ls = before ++ ["#"] ∧ "#" ∉ before := by
  induction ls with
  | nil => exact .inl List.not_mem_nil
  | cons level rest ih =>
    obtain ⟨allowed, valid⟩ := validLevels_cons.1 valid
    by_cases is_hash : level = "#"
    · subst is_hash
      obtain ⟨rfl, -⟩ | plus | plain := allowed
      · exact .inr ⟨[], rfl, List.not_mem_nil⟩
      · exact absurd plus (by decide)
      · exact absurd plain (by decide)
    · obtain none | ⟨before, rfl, none⟩ := ih valid
      · exact .inl (List.not_mem_cons_of_ne_of_not_mem (Ne.symm is_hash) none)
      · exact .inr ⟨level :: before, rfl, List.not_mem_cons_of_ne_of_not_mem (Ne.symm is_hash) none⟩

theorem validLevels_set_plus {ls : List String} (valid : validLevels ls = true) (i : Nat) :
    validLevels (ls.set i "+") = true := by
  induction ls generalizing i with
  | nil => rfl
  | cons level rest ih =>
    obtain ⟨allowed, valid⟩ := validLevels_cons.1 valid
    cases i with
    | zero => exact validLevels_cons.2 ⟨.inr (.inl rfl), valid⟩
    | succ i =>
      rw [List.set_cons_succ, validLevels_cons, List.set_eq_nil_iff]
      exact ⟨allowed, ih valid i⟩

theorem validLevels_take_hash {ls : List String} (valid : validLevels ls = true) {k : Nat}
    (tail : k < ls.length) : validLevels (ls.take k ++ ["#"]) = true := by
  induction ls generalizing k with
  | nil => cases tail
  | cons level rest ih =>
    cases k with
    | zero => rfl
    | succ k =>
      obtain ⟨allowed, valid⟩ := validLevels_cons.1 valid
      have tail := Nat.lt_of_succ_lt_succ tail
      have more : rest ≠ [] := List.ne_nil_of_length_pos (Nat.zero_lt_of_lt tail)
      rw [List.take_succ_cons, List.cons_append, validLevels_cons]
      exact ⟨.inr (allowed.resolve_left fun last => more last.1), ih valid tail⟩

/-! ## Wildcards let in more -/

/-- **A `+` in place of a level loses no match.** -/
theorem matchLevels_set_plus {filter topic : List String} {i : Nat}
    (other : filter[i]? ≠ some "#") (matched : matchLevels filter topic = true) :
    matchLevels (filter.set i "+") topic = true := by
  induction filter generalizing topic i with
  | nil => exact matched
  | cons f filter ih =>
    by_cases is_hash : f = "#"
    · subst is_hash
      cases i with
      | zero => exact absurd rfl other
      | succ i => exact matchLevels_hash _ topic
    obtain ⟨t, rest, rfl, first, matched⟩ := (matchLevels_cons_iff is_hash).1 matched
    cases i with
    | zero => exact (matchLevels_cons_iff (by decide)).2 ⟨t, rest, rfl, .inl rfl, matched⟩
    | succ i => exact (matchLevels_cons_iff is_hash).2 ⟨t, rest, rfl, first, ih other matched⟩

/-- **A `#` in place of the levels from some place on loses no match.** -/
theorem matchLevels_take_hash {filter topic : List String} (k : Nat)
    (matched : matchLevels filter topic = true) :
    matchLevels (filter.take k ++ ["#"]) topic = true := by
  induction filter generalizing topic k with
  | nil =>
    rw [List.take_nil]
    exact matchLevels_hash [] topic
  | cons f filter ih =>
    cases k with
    | zero => exact matchLevels_hash [] topic
    | succ k =>
      rw [List.take_succ_cons, List.cons_append]
      by_cases is_hash : f = "#"
      · subst is_hash
        exact matchLevels_hash _ topic
      obtain ⟨t, rest, rfl, first, matched⟩ := (matchLevels_cons_iff is_hash).1 matched
      exact (matchLevels_cons_iff is_hash).2 ⟨t, rest, rfl, first, ih k matched⟩

/-! ## Filters -/

variable {filter topic : String}

/-- The filter with `+` at one of its levels. -/
def loosened (filter : String) (i : Nat) : String :=
  ofLevels ((levels filter).set i "+")

/-- The filter with `#` for all of its levels but the first `k`. -/
def shortened (filter : String) (k : Nat) : String :=
  ofLevels ((levels filter).take k ++ ["#"])

theorem levels_loosened (filter : String) (i : Nat) :
    levels (loosened filter i) = (levels filter).set i "+" := by
  refine levels_ofLevels (fun none => levels_ne_nil filter ((List.set_eq_nil_iff ..).1 none))
    fun l is_level => ?_
  obtain old | rfl := List.mem_or_eq_of_mem_set is_level
  · exact slash_not_mem_level old
  · decide

theorem levels_shortened (filter : String) (k : Nat) :
    levels (shortened filter k) = (levels filter).take k ++ ["#"] := by
  refine levels_ofLevels (List.append_ne_nil_of_right_ne_nil _ (List.cons_ne_nil _ _))
    fun l is_level => ?_
  obtain old | new := List.mem_append.1 is_level
  · exact slash_not_mem_level (List.mem_of_mem_take old)
  · obtain rfl := List.mem_singleton.1 new
    decide

theorem validLevels_of_isValid (valid : isValid filter = true) :
    validLevels (levels filter) = true :=
  (Bool.and_eq_true_iff.1 valid).2

/-- A filter with a wildcard for a level is not empty. -/
theorem isValid_of_mem {level : String} (is_level : level ∈ levels filter) (nonempty : level ≠ "")
    (valid : validLevels (levels filter) = true) : isValid filter = true := by
  refine Bool.and_eq_true_iff.2 ⟨bne_iff_ne.2 fun empty => nonempty ?_, valid⟩
  subst empty
  exact List.mem_singleton.1 is_level

/-- **A valid filter matches the topics that it covers.** -/
theorem topicMatches_iff_covers (valid : isValid filter = true) :
    topicMatches filter topic = true ↔ Covers (levels filter) (levels topic) := by
  unfold topicMatches
  obtain none | ⟨before, ends, none⟩ := hash_at_end (validLevels_of_isValid valid)
  · rw [matchLevels_iff_of_no_hash none]
    constructor
    · rintro ⟨as_long, along⟩
      exact .whole (fun last => none (List.mem_of_getLast? last)) as_long along
    · rintro (⟨-, as_long, along⟩ | ⟨before, ends, -, -⟩)
      · exact ⟨as_long, along⟩
      · rw [ends] at none
        exact absurd (List.mem_append_right _ List.mem_cons_self) none
  · rw [ends, matchLevels_hash_iff none]
    constructor
    · rintro ⟨long, along⟩
      exact .beginning before rfl long along
    · rintro (⟨closed, -, -⟩ | ⟨before', ends', long, along⟩)
      · exact absurd List.getLast?_concat closed
      · obtain ⟨rfl, -⟩ := List.append_inj' ends' rfl
        exact ⟨long, along⟩

/-- A topic matches itself as a filter. -/
theorem topicMatches_self (topic : String) : topicMatches topic topic = true := by
  unfold topicMatches
  induction levels topic with
  | nil => rfl
  | cons level rest ih =>
    by_cases is_hash : level = "#"
    · subst is_hash
      exact matchLevels_hash rest _
    · exact (matchLevels_cons_iff is_hash).2 ⟨level, rest, rfl, .inr rfl, ih⟩

/-- Levels without wildcards stand for themselves alone. -/
theorem eq_of_alongside {filter topic : List String} (no_plus : "+" ∉ filter)
    (as_long : filter.length = topic.length) (along : Alongside filter topic) : filter = topic := by
  have each : List.Forall₂ (· = ·) filter topic := by
    refine List.forall₂_iff_zip.2 ⟨as_long, fun {f t} pair => ?_⟩
    obtain rfl | same := along f t pair
    · exact absurd (List.of_mem_zip pair).1 no_plus
    · exact same
  rwa [List.forall₂_eq_eq_eq] at each

/-- **Without wildcards a filter matches itself alone.** -/
theorem topicMatches_iff_eq (no_plus : "+" ∉ levels filter) (no_hash : "#" ∉ levels filter) :
    topicMatches filter topic = true ↔ topic = filter := by
  constructor
  · intro matched
    obtain ⟨as_long, along⟩ := (matchLevels_iff_of_no_hash no_hash).1 matched
    exact (levels_injective (eq_of_alongside no_plus as_long along)).symm
  · rintro rfl
    exact topicMatches_self topic

/-- Whether a filter matches whatever another one matches. -/
def Widens (wider filter : String) : Prop :=
  ∀ topic, topicMatches filter topic = true → topicMatches wider topic = true

theorem loosened_widens {i : Nat} (other : (levels filter)[i]? ≠ some "#") :
    Widens (loosened filter i) filter := by
  intro topic matched
  unfold topicMatches
  rw [levels_loosened]
  exact matchLevels_set_plus other matched

theorem shortened_widens (filter : String) (k : Nat) : Widens (shortened filter k) filter := by
  intro topic matched
  unfold topicMatches
  rw [levels_shortened]
  exact matchLevels_take_hash k matched

theorem isValid_loosened (valid : isValid filter = true) {i : Nat}
    (within : i < (levels filter).length) : isValid (loosened filter i) = true := by
  have at_levels := levels_loosened filter i
  have plus : "+" ∈ levels (loosened filter i) := by
    rw [at_levels]
    exact List.mem_set within "+"
  refine isValid_of_mem plus (by decide) ?_
  rw [at_levels]
  exact validLevels_set_plus (validLevels_of_isValid valid) i

theorem isValid_shortened (valid : isValid filter = true) {k : Nat}
    (tail : k < (levels filter).length) : isValid (shortened filter k) = true := by
  have at_levels := levels_shortened filter k
  have hash : "#" ∈ levels (shortened filter k) := by
    rw [at_levels]
    exact List.mem_append_right _ List.mem_cons_self
  refine isValid_of_mem hash (by decide) ?_
  rw [at_levels]
  exact validLevels_take_hash (validLevels_of_isValid valid) tail

/-- In a valid filter a level that is not a final `#` is no `#`. -/
theorem not_hash_of_not_final (valid : isValid filter = true) {i : Nat}
    (not_final : ¬ ((levels filter)[i]? = some "#" ∧ i + 1 = (levels filter).length)) :
    (levels filter)[i]? ≠ some "#" := by
  intro is_hash
  obtain none | ⟨before, ends, none⟩ := hash_at_end (validLevels_of_isValid valid)
  · exact none (List.mem_of_getElem? is_hash)
  refine not_final ⟨is_hash, ?_⟩
  rw [ends] at is_hash ⊢
  obtain early | late := Nat.lt_or_ge i before.length
  · rw [List.getElem?_append_left early] at is_hash
    exact absurd (List.mem_of_getElem? is_hash) none
  · have within := (List.getElem?_eq_some_iff.1 is_hash).1
    rw [List.length_append, List.length_singleton] at within ⊢
    omega

/-- **What a filter matches**, said of its levels. -/
structure LevelByLevel (filter : String) : Prop where
  /-- It matches what it covers. -/
  covers : ∀ topic, topicMatches filter topic = true ↔ Covers (levels filter) (levels topic)
  /-- Without wildcards it matches itself alone. -/
  alone : "+" ∉ levels filter → "#" ∉ levels filter →
    ∀ topic, topicMatches filter topic = true ↔ topic = filter
  /-- With `+` for a level that is not a final `#` it is a filter that matches no less. -/
  loosened : ∀ i, i < (levels filter).length →
    ¬ ((levels filter)[i]? = some "#" ∧ i + 1 = (levels filter).length) →
      levels (Filter.loosened filter i) = (levels filter).set i "+" ∧
        isValid (Filter.loosened filter i) = true ∧ Widens (Filter.loosened filter i) filter
  /-- With `#` for its last levels it is a filter that matches no less. -/
  shortened : ∀ k, k < (levels filter).length →
    levels (Filter.shortened filter k) = (levels filter).take k ++ ["#"] ∧
      isValid (Filter.shortened filter k) = true ∧ Widens (Filter.shortened filter k) filter

/-- **Valid filters are matched level by level.** -/
theorem matches_level_by_level (valid : isValid filter = true) : LevelByLevel filter where
  covers _ := topicMatches_iff_covers valid
  alone no_plus no_hash _ := topicMatches_iff_eq no_plus no_hash
  loosened i within not_final :=
    ⟨levels_loosened filter i, isValid_loosened valid within,
      loosened_widens (not_hash_of_not_final valid not_final)⟩
  shortened k tail :=
    ⟨levels_shortened filter k, isValid_shortened valid tail, shortened_widens filter k⟩

/-- A filter with an empty level and both wildcards, and a topic that ends where the `#`
stands. -/
theorem matches_level_by_level_with_wildcards :
    isValid "/+/b/#" = true ∧ LevelByLevel "/+/b/#" ∧ topicMatches "/+/b/#" "/a/b" = true ∧
      topicMatches "/+/b/#" "/a/c" = false :=
  ⟨by decide, matches_level_by_level (by decide), by decide, by decide⟩

end TopicMesh.Filter
