import TopicMesh.Discovery
import TopicMesh.Filter

/-!
# The announcement topics below a base

Below a base without wildcards (`PlainBase`) the discovery filter is valid and
matches the announcement topic of every node whose identity is one level
(`NodeName`).  These topics are told apart by the identities.
-/

namespace TopicMesh

namespace Filter

/-- One more level below some others. -/
theorem levels_below {level : String} (h : '/' ∉ level.toList) (base : String) :
    levels (base ++ "/" ++ level) = levels base ++ [level] := by
  have split : (base ++ "/" ++ level).toList = base.toList ++ '/' :: level.toList := by
    rw [String.toList_append, String.toList_append, List.append_assoc]
    rfl
  unfold levels
  rw [split, List.splitOn_append_cons_self, List.splitOn_eq_singleton h, List.map_append]
  show _ ++ [String.ofList level.toList] = _
  rw [String.ofList_toList]

/-- What does not occur in a text occurs in none of its levels. -/
theorem not_mem_level {c : Char} {s level : String} (h : c ∉ s.toList)
    (hl : level ∈ levels s) : c ∉ level.toList := by
  obtain ⟨part, hp, rfl⟩ := List.mem_map.1 hl
  rw [String.toList_ofList]
  intro hc
  have whole : ['/'].intercalate (s.toList.splitOn '/') = s.toList := List.intercalate_splitOn '/'
  refine h (whole ▸ ?_)
  clear whole h
  generalize s.toList.splitOn '/' = parts at hp
  induction parts with
  | nil => cases hp
  | cons p parts ih =>
    cases parts with
    | nil =>
      obtain rfl := List.mem_singleton.1 hp
      simpa using hc
    | cons q parts =>
      rw [List.intercalate_cons_cons]
      rcases List.mem_cons.1 hp with rfl | hp
      · exact List.mem_append_left _ (List.mem_append_left _ hc)
      · exact List.mem_append_right _ (ih hp)

/-- A filter of plain levels and one `+` matches a topic with the same levels and any
last one. -/
theorem matchLevels_below {above : List String} (plain : ∀ l ∈ above, l ≠ "#") (last : String) :
    matchLevels (above ++ ["+"]) (above ++ [last]) = true := by
  induction above with
  | nil =>
    show matchLevels ["+"] [last] = true
    simp [matchLevels]
  | cons l above ih =>
    rw [List.cons_append, List.cons_append, matchLevels, if_neg (plain l List.mem_cons_self)]
    simp [ih fun l' hl' => plain l' (List.mem_cons_of_mem _ hl')]

theorem validLevels_below {above : List String} (plain : ∀ l ∈ above, isPlain l = true) :
    validLevels (above ++ ["+"]) = true := by
  induction above with
  | nil => rfl
  | cons l above ih =>
    have rest := ih fun l' hl' => plain l' (List.mem_cons_of_mem _ hl')
    cases above with
    | nil =>
      show ((l = "+" || isPlain l) && validLevels ["+"]) = true
      simp [plain l List.mem_cons_self, validLevels]
    | cons l' above =>
      show ((l = "+" || isPlain l) && validLevels (l' :: above ++ ["+"])) = true
      rw [rest, plain l List.mem_cons_self, Bool.or_true]
      rfl

end Filter

/-- Whether a base has no wildcards. -/
structure PlainBase (base : String) : Prop where
  no_plus : '+' ∉ base.toList
  no_hash : '#' ∉ base.toList

/-- Whether an identity is one level, and not an empty one. -/
structure NodeName (id : String) : Prop where
  nonempty : id ≠ ""
  one_level : '/' ∉ id.toList

namespace DiscoveryConfig

variable {c : DiscoveryConfig}

theorem filter_eq (c : DiscoveryConfig) : c.filter = c.topicBase ++ "/" ++ "+" := by
  rw [String.append_assoc]
  rfl

theorem levels_filter (c : DiscoveryConfig) :
    Filter.levels c.filter = Filter.levels c.topicBase ++ ["+"] := by
  rw [filter_eq]
  exact Filter.levels_below (by decide) _

theorem isPlain_of_mem_levels (base : PlainBase c.topicBase) {level : String}
    (h : level ∈ Filter.levels c.topicBase) : Filter.isPlain level = true := by
  refine List.all_eq_true.2 fun x hx => ?_
  have hash : x ≠ '#' := fun e => Filter.not_mem_level base.no_hash h (e ▸ hx)
  have plus : x ≠ '+' := fun e => Filter.not_mem_level base.no_plus h (e ▸ hx)
  simp [hash, plus]

theorem isValid_filter (base : PlainBase c.topicBase) : Filter.isValid c.filter = true := by
  have nonempty : c.filter ≠ "" := fun h => by
    have := congrArg String.toList h
    simp [filter] at this
  unfold Filter.isValid
  rw [levels_filter, Filter.validLevels_below fun l hl => isPlain_of_mem_levels base hl]
  simpa using nonempty

/-- The discovery filter matches the topics of all nodes below the same base. -/
theorem filter_matches_nodeTopic (base : PlainBase c.topicBase) {d : DiscoveryConfig}
    (same : d.topicBase = c.topicBase) (name : NodeName d.nodeId) :
    Filter.topicMatches c.filter d.nodeTopic = true := by
  have topic_levels : Filter.levels d.nodeTopic = Filter.levels c.topicBase ++ [d.nodeId] := by
    rw [← same]
    exact Filter.levels_below name.one_level _
  unfold Filter.topicMatches
  rw [levels_filter, topic_levels]
  refine Filter.matchLevels_below (fun l hl e => ?_) _
  have := isPlain_of_mem_levels base hl
  rw [e] at this
  exact absurd this (by decide)

theorem isDiscoveryTopic_below (id : String) :
    c.isDiscoveryTopic (c.topicBase ++ "/" ++ id) = (!id.toList.isEmpty && !id.toList.contains '/') := by
  have split : (c.topicBase ++ "/" ++ id).toList = (c.topicBase.toList ++ ['/']) ++ id.toList := by
    rw [String.toList_append, String.toList_append]
    rfl
  have is_prefix : (c.topicBase.toList ++ ['/']).isPrefixOf
      ((c.topicBase.toList ++ ['/']) ++ id.toList) = true :=
    List.isPrefixOf_iff_prefix.2 (List.prefix_append _ _)
  unfold isDiscoveryTopic
  dsimp only
  rw [split, is_prefix, List.drop_left]
  rfl

theorem isDiscoveryTopic_nodeTopic {d : DiscoveryConfig} (same : d.topicBase = c.topicBase)
    (name : NodeName d.nodeId) : c.isDiscoveryTopic d.nodeTopic = true := by
  have nonempty : d.nodeId.toList ≠ [] := fun h => name.nonempty (String.toList_eq_nil_iff.1 h)
  have := isDiscoveryTopic_below (c := c) d.nodeId
  rw [← same] at this
  rw [nodeTopic, this]
  simpa [nonempty] using name.one_level

/-- The discovery filter is itself a topic for announcements, and so is not to be
subscribed by others. -/
theorem isDiscoveryTopic_filter : c.isDiscoveryTopic c.filter = true := by
  rw [filter_eq, isDiscoveryTopic_below]
  rfl

theorem nodeTopic_inj {d : DiscoveryConfig} (same : d.topicBase = c.topicBase) :
    d.nodeTopic = c.nodeTopic ↔ d.nodeId = c.nodeId := by
  constructor
  · intro h
    unfold nodeTopic at h
    rw [same] at h
    exact String.append_right_inj _ |>.1 h
  · intro h
    rw [nodeTopic, nodeTopic, same, h]

end DiscoveryConfig

end TopicMesh
