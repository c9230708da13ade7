import TopicMesh.Node.Basic
import TopicMesh.Proofs.Broker.Posting
import TopicMesh.Proofs.Discovery.Topics
import TopicMesh.Proofs.Filter.Matching

/-!
# What goes to discovery

A node subscribes the topics one level below the base of discovery by a filter, and it
sorts what the broker sends it by a test on the text of the topic.  The filter compares
levels, the test looks for the base and a slash at the front.

**Both say the same** of every base of which no level is a wildcard, and of every topic
but one (`filter_agrees_with_test`): the base with a slash after it, below which there is
a node without a name.  The filter matches that topic, and the test refuses it.  For both
come to the base, a slash, and one more level (`topicMatches_filter_iff`,
`isDiscoveryTopic_iff`); the test wants it not to be empty.
-/

namespace TopicMesh

namespace Filter

/-- Plain levels and a `+` after them match the same levels and any one after them. -/
theorem matchLevels_concat_plus_iff {above topic : List String} (no_plus : "+" ∉ above)
    (no_hash : "#" ∉ above) :
    matchLevels (above ++ ["+"]) topic = true ↔ ∃ last, topic = above ++ [last] := by
  induction above generalizing topic with
  | nil =>
    rw [List.nil_append, matchLevels_cons_iff (by decide)]
    constructor
    · rintro ⟨last, rest, rfl, -, ends⟩
      cases rest with
      | nil => exact ⟨last, rfl⟩
      | cons => cases ends
    · rintro ⟨last, rfl⟩
      exact ⟨last, [], rfl, .inl rfl, rfl⟩
  | cons level above ih =>
    rw [List.mem_cons, not_or] at no_plus no_hash
    rw [List.cons_append, matchLevels_cons_iff (Ne.symm no_hash.1)]
    constructor
    · rintro ⟨first, rest, rfl, plus | rfl, matched⟩
      · exact absurd plus.symm no_plus.1
      · obtain ⟨last, rfl⟩ := (ih no_plus.2 no_hash.2).1 matched
        exact ⟨last, rfl⟩
    · rintro ⟨last, rfl⟩
      exact ⟨level, above ++ [last], rfl, .inr rfl, (ih no_plus.2 no_hash.2).2 ⟨last, rfl⟩⟩

end Filter

namespace DiscoveryConfig

open TopicMesh.Filter

variable {c : DiscoveryConfig} {topic : String}

/-- Whether no level of the base is a wildcard. -/
structure LiteralBase (c : DiscoveryConfig) : Prop where
  no_plus : "+" ∉ levels c.topicBase
  no_hash : "#" ∉ levels c.topicBase

/-- The topic below the base that has no name. -/
def unnamedTopic (c : DiscoveryConfig) : String :=
  c.topicBase ++ "/"

theorem below_eq_unnamedTopic_iff {name : String} :
    c.topicBase ++ "/" ++ name = c.unnamedTopic ↔ name = "" := by
  constructor
  · intro same
    refine (String.append_right_inj c.unnamedTopic).1 ?_
    rw [String.append_empty]
    exact same
  · rintro rfl
    exact String.append_empty

/-- The discovery filter matches what is one level below the base. -/
theorem topicMatches_filter_iff (base : c.LiteralBase) :
    topicMatches c.filter topic = true ↔
      ∃ name : String, '/' ∉ name.toList ∧ topic = c.topicBase ++ "/" ++ name := by
  unfold topicMatches
  rw [levels_filter, matchLevels_concat_plus_iff base.no_plus base.no_hash]
  constructor
  · rintro ⟨name, is⟩
    have one_level : '/' ∉ name.toList :=
      slash_not_mem_level (is ▸ List.mem_append_right _ List.mem_cons_self)
    exact ⟨name, one_level, levels_injective (is.trans (levels_below one_level _).symm)⟩
  · rintro ⟨name, one_level, rfl⟩
    exact ⟨name, levels_below one_level _⟩

/-- The test takes what is one level below the base, and has a name there. -/
theorem isDiscoveryTopic_iff :
    c.isDiscoveryTopic topic = true ↔
      ∃ name : String, NodeName name ∧ topic = c.topicBase ++ "/" ++ name := by
  constructor
  · intro taken
    have front : (c.topicBase.toList ++ ['/']) <+: topic.toList :=
      List.isPrefixOf_iff_prefix.1
        (Bool.and_eq_true_iff.1 (Bool.and_eq_true_iff.1 taken).1).1
    obtain ⟨name, is⟩ := front
    have below : topic = c.topicBase ++ "/" ++ String.ofList name := by
      have slash : "/".toList = ['/'] := by decide
      refine String.toList_inj.1 ?_
      rw [← is, String.toList_append, String.toList_append, slash, String.toList_ofList]
    rw [below, isDiscoveryTopic_below, String.toList_ofList] at taken
    simp only [Bool.and_eq_true, Bool.not_eq_true', List.isEmpty_eq_false_iff] at taken
    refine ⟨String.ofList name, ⟨fun empty => ?_, ?_⟩, below⟩
    · exact taken.1 (String.ofList_eq_empty_iff.1 empty)
    · rw [String.toList_ofList]
      simpa using taken.2
  · rintro ⟨name, is_name, rfl⟩
    have nonempty : name.toList ≠ [] := fun none =>
      is_name.nonempty (String.toList_eq_nil_iff.1 none)
    rw [isDiscoveryTopic_below]
    simpa [nonempty] using is_name.one_level

/-- **Filter and test differ in the topic without a name only.** -/
theorem isDiscoveryTopic_iff_topicMatches (base : c.LiteralBase) :
    c.isDiscoveryTopic topic = true ↔
      topicMatches c.filter topic = true ∧ topic ≠ c.unnamedTopic := by
  rw [isDiscoveryTopic_iff, topicMatches_filter_iff base]
  constructor
  · rintro ⟨name, is_name, rfl⟩
    exact ⟨⟨name, is_name.one_level, rfl⟩,
      fun unnamed => is_name.nonempty (below_eq_unnamedTopic_iff.1 unnamed)⟩
  · rintro ⟨⟨name, one_level, rfl⟩, named⟩
    exact ⟨name, ⟨fun empty => named (below_eq_unnamedTopic_iff.2 empty), one_level⟩, rfl⟩

end DiscoveryConfig

/-- What a message from the broker does to a node, in one equation. -/
theorem Node.onFrame_deliver (n : Node) (m : Message) :
    n.onFrame (.deliver m) =
      if n.config.discovery.isDiscoveryTopic m.topic then n.hear m.topic m.payload
      else n.deliver (.ofMessage m) := rfl

namespace DiscoveryConfig

open TopicMesh.Filter

/-- **Whether the filter of a node and its test say the same.** -/
structure Agrees (c : DiscoveryConfig) : Prop where
  /-- The test takes what the filter matches, but for the topic without a name. -/
  topics : ∀ topic, c.isDiscoveryTopic topic = true ↔
    topicMatches c.filter topic = true ∧ topic ≠ c.unnamedTopic
  /-- What comes to a node by the filter goes to discovery, with that exception, and
  everything else goes to the callbacks. -/
  sorted : ∀ n : Node, n.config.discovery = c → ∀ m,
    n.onFrame (.deliver m) =
      if topicMatches c.filter m.topic = true ∧ m.topic ≠ c.unnamedTopic then
        n.hear m.topic m.payload
      else n.deliver (.ofMessage m)
  /-- What is published and goes to a client that is listed by the filter alone is on
  topics that go to discovery, with that exception. -/
  relayed : ∀ h : Hub, h.Sound → ∀ client,
    (∀ filter, h.broker.subscribed filter client = true → filter = c.filter) → ∀ topic,
      h.broker.owns topic client = true → topic ≠ c.unnamedTopic → c.isDiscoveryTopic topic = true
  /-- What was kept and is sent when the filter is subscribed is so too. -/
  replayed : ∀ h : Hub, h.Sound → ∀ m ∈ h.broker.retained.matching c.filter,
    m.topic ≠ c.unnamedTopic → c.isDiscoveryTopic m.topic = true

/-- **A node sorts what its discovery filter brings to discovery, and nothing else.** -/
theorem filter_agrees_with_test {c : DiscoveryConfig} (base : c.LiteralBase) : c.Agrees where
  topics _ := isDiscoveryTopic_iff_topicMatches base
  sorted n same m := by
    rw [Node.onFrame_deliver, same]
    exact if_congr (isDiscoveryTopic_iff_topicMatches base) rfl rfl
  relayed h sound client alone topic owns named := by
    obtain ⟨filter, matched, listed⟩ := sound.filed.owns_iff.1 owns
    rw [alone filter listed] at matched
    exact (isDiscoveryTopic_iff_topicMatches base).2 ⟨matched, named⟩
  replayed h sound m kept named := by
    obtain ⟨⟨topic, m⟩, entry, rfl⟩ := List.mem_map.1 kept
    obtain ⟨stored, matched⟩ := List.mem_filter.1 entry
    have own : m.topic = topic := sound.topics topic m (KeyMap.mem_entries_iff.1 stored)
    rw [own] at named ⊢
    exact (isDiscoveryTopic_iff_topicMatches base).2 ⟨matched, named⟩

/-- A base with an empty level at its front and in its middle, signs that are no wildcards
there, and slashes at its end. -/
def awkward : DiscoveryConfig := .new "me" "10.0.0.1" "/mesh//a+#b//" true

theorem filter_agrees_with_test_awkward :
    awkward.LiteralBase ∧ awkward.Agrees ∧ awkward.isDiscoveryTopic "/mesh//a+#b/" = false ∧
      topicMatches awkward.filter "/mesh//a+#b/" = true ∧
      awkward.isDiscoveryTopic "/mesh//a+#b/n" = true ∧
      topicMatches awkward.filter "/mesh//a+#b/n" = true := by
  have base : awkward.LiteralBase := ⟨by decide, by decide⟩
  exact ⟨base, filter_agrees_with_test base, by decide, by decide, by decide, by decide⟩

end DiscoveryConfig

end TopicMesh
