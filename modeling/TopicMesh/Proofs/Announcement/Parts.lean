import Mathlib.Data.List.Forall2
import TopicMesh.Announcement
import TopicMesh.Proofs.KeyMap.Reading
import TopicMesh.Proofs.Text.Utf8

/-!
# The parts of an announcement

What the steps of reading an announcement find, and when they find it.  A value is a
text exactly if it is the one that the text is written as (`text?_eq_some_iff`), so the
keys of a map whose keys are texts say everything about it (`textEntries?_eq_some_iff`).
The host is there if one entry has its key and holds a text, and the topics are
the entries whose keys are not taken (`mem_of_topics?`).

Of the topics that are found, those that are served are looked up by the numbers
found with them (`get?_served_of_mem`), and no others are there
(`mem_of_mem_keys_served`).
-/

namespace TopicMesh.Announcement

open Pack

/-! ## Texts and keys -/

theorem text?_packText (s : String) : text? (packText s) = some s := by
  show (Utf8.decode (Utf8.encode s)).toOption = some s
  rw [Utf8.decode_encode]
  rfl

theorem packText_injective {s t : String} (h : packText s = packText t) : s = t := by
  have same := congrArg text? h
  rwa [text?_packText, text?_packText, Option.some.injEq] at same

/-- **A text is read only from the value it is written as.** -/
theorem text?_eq_some_iff {v : Pack} {s : String} : text? v = some s ↔ v = packText s := by
  refine ⟨fun read => ?_, fun same => same ▸ text?_packText s⟩
  cases v with
  | blob bytes =>
    change (Utf8.decode bytes).toOption = some s at read
    cases decoded : Utf8.decode bytes with
    | error fault =>
      rw [decoded] at read
      cases read
    | ok t =>
      rw [decoded] at read
      cases read
      rw [packText, Utf8.encode_of_decode decoded]
  | _ => cases read

/-- What all members of a list are mapped to, if all are mapped to something. -/
theorem mapM_eq_some_iff {α β : Type} {f : α → Option β} {as : List α} {bs : List β} :
    as.mapM f = some bs ↔ List.Forall₂ (fun a b => f a = some b) as bs := by
  constructor
  · intro mapped
    induction as generalizing bs with
    | nil =>
      cases mapped
      exact .nil
    | cons a as ih =>
      rw [List.mapM_cons, Option.bind_eq_bind, Option.bind_eq_some_iff] at mapped
      obtain ⟨b, first, mapped⟩ := mapped
      obtain ⟨others, later, same⟩ := Option.bind_eq_some_iff.1 mapped
      cases same
      exact .cons first (ih later)
  · intro each
    induction each with
    | nil => rfl
    | cons first _ ih =>
      rw [List.mapM_cons, first, ih]
      rfl

/-- An entry as it is found in the map, its key being a text. -/
def packEntry (entry : String × Pack) : Pack × Pack :=
  (packText entry.1, entry.2)

theorem packEntry_injective {e e' : String × Pack} (h : packEntry e = packEntry e') : e = e' :=
  Prod.ext (packText_injective (Prod.mk.inj h).1) (Prod.mk.inj h).2

/-- **The keys of a map are texts** if each is one. -/
theorem textEntries?_eq_some_iff {entries : List (Pack × Pack)} {texts : List (String × Pack)} :
    textEntries? entries = some texts ↔ entries = texts.map packEntry := by
  unfold textEntries?
  rw [mapM_eq_some_iff]
  have one : ∀ (e : Pack × Pack) (t : String × Pack),
      (text? e.1).map (fun key => (key, e.2)) = some t ↔ e = packEntry t := by
    intro e t
    rw [Option.map_eq_some_iff]
    constructor
    · rintro ⟨key, read, rfl⟩
      exact Prod.ext (text?_eq_some_iff.1 read) rfl
    · rintro rfl
      exact ⟨t.1, text?_packText t.1, rfl⟩
  constructor
  · intro each
    induction each with
    | nil => rfl
    | cons first _ ih => rw [List.map_cons, ← (one _ _).1 first, ← ih]
  · rintro rfl
    induction texts with
    | nil => exact .nil
    | cons t texts ih => exact .cons ((one _ t).2 rfl) ih

/-! ## Looking for a key -/

section

variable {entries : List (String × Pack)} {key : String} {value : Pack}

theorem mem_valuesOf : value ∈ valuesOf key entries ↔ (key, value) ∈ entries := by
  unfold valuesOf
  rw [List.mem_map]
  constructor
  · rintro ⟨e, found, rfl⟩
    obtain ⟨there, same⟩ := List.mem_filter.1 found
    rwa [← eq_of_beq same]
  · intro there
    exact ⟨_, List.mem_filter.2 ⟨there, beq_self_eq_true key⟩, rfl⟩

theorem valuesOf_of_not_mem (h : key ∉ entries.map Prod.fst) : valuesOf key entries = [] := by
  refine List.eq_nil_iff_forall_not_mem.2 fun value there => h ?_
  exact List.mem_map_of_mem (mem_valuesOf.1 there)

/-- If no key is there twice, the value of one is the only one. -/
theorem valuesOf_of_mem (distinct : (entries.map Prod.fst).Nodup) (h : (key, value) ∈ entries) :
    valuesOf key entries = [value] := by
  induction entries with
  | nil => cases h
  | cons e entries ih =>
    obtain ⟨fresh, distinct⟩ := List.nodup_cons.1 distinct
    rcases List.mem_cons.1 h with rfl | h
    · have rest := valuesOf_of_not_mem fresh
      unfold valuesOf at rest ⊢
      rw [List.filter_cons, if_pos (beq_self_eq_true key), List.map_cons, rest]
    · have other : e.1 ≠ key := fun same => fresh (same ▸ List.mem_map_of_mem h)
      rw [valuesOf, List.filter_cons_of_neg (by simpa using other)]
      exact ih distinct h

/-- A status that has no other beside it is read. -/
theorem statusWord?_of_only {word : String} (only : valuesOf "status" entries = [packText word]) :
    statusWord? entries = some word := by
  rw [statusWord?, only]
  exact text?_packText word

theorem host?_eq_some_iff {host : String} :
    host? entries = some host ↔ valuesOf "host" entries = [packText host] := by
  constructor
  · intro found
    unfold host? at found
    split at found
    · next value only => rw [only, text?_eq_some_iff.1 found]
    · cases found
  · intro only
    rw [host?, only]
    exact text?_packText host

end

/-! ## Topics -/

/-- What is found of a topic is found with a key of its own. -/
theorem mem_of_topics? {entries : List (String × Pack)} {topics : List (String × Nat × Nat)}
    (found : topics? entries = some topics) {t : String × Nat × Nat} (h : t ∈ topics) :
    isReservedKey t.1 = false ∧ ∃ value, (t.1, value) ∈ entries ∧ numbers? value = some t.2 := by
  have each := mapM_eq_some_iff.1 found
  obtain ⟨e, there, same⟩ : ∃ e ∈ entries.filter fun e => !isReservedKey e.1,
      (numbers? e.2).map (fun numbers => (e.1, numbers)) = some t := by
    generalize entries.filter (fun e => !isReservedKey e.1) = others at each
    clear found
    induction each with
    | nil => cases h
    | cons first _ ih =>
      rcases List.mem_cons.1 h with rfl | h
      · exact ⟨_, List.mem_cons_self, first⟩
      · obtain ⟨e, there, same⟩ := ih h
        exact ⟨e, List.mem_cons_of_mem _ there, same⟩
  obtain ⟨there, plain⟩ := List.mem_filter.1 there
  obtain ⟨numbers, read, rfl⟩ := Option.map_eq_some_iff.1 same
  exact ⟨by simpa using plain, e.2, there, read⟩

theorem length_of_topics? {entries : List (String × Pack)} {topics : List (String × Nat × Nat)}
    (found : topics? entries = some topics) : topics.length ≤ entries.length := by
  rw [← (mapM_eq_some_iff.1 found).length_eq]
  exact List.length_filter_le ..

section

variable (known : KeyMap String Capability) {topics : List (String × Nat × Nat)}

/-- Topics with other names leave a name as it was. -/
theorem get?_foldl_put_of_forall_ne {name : String} (h : ∀ t ∈ topics, t.1 ≠ name) :
    (topics.foldl (fun known entry => known.put entry.1 (capability? entry.2)) known).get? name =
      known.get? name := by
  induction topics generalizing known with
  | nil => rfl
  | cons t topics ih =>
    rw [List.foldl_cons, ih _ fun t' there => h t' (List.mem_cons_of_mem _ there),
      KeyMap.get?_put, if_neg (h t List.mem_cons_self)]

theorem get?_foldl_put_of_mem (distinct : (topics.map Prod.fst).Nodup) {t : String × Nat × Nat}
    (h : t ∈ topics) :
    (topics.foldl (fun known entry => known.put entry.1 (capability? entry.2)) known).get? t.1 =
      capability? t.2 := by
  induction topics generalizing known with
  | nil => cases h
  | cons t' topics ih =>
    obtain ⟨fresh, distinct⟩ := List.nodup_cons.1 distinct
    rw [List.foldl_cons]
    rcases List.mem_cons.1 h with rfl | h
    · have others : ∀ t' ∈ topics, t'.1 ≠ t.1 := fun t' there same =>
        fresh (same ▸ List.mem_map_of_mem there)
      rw [get?_foldl_put_of_forall_ne _ others, KeyMap.get?_put, if_pos rfl]
    · exact ih _ distinct h

theorem size_foldl_put_le :
    (topics.foldl (fun known entry => known.put entry.1 (capability? entry.2)) known).size ≤
      known.size + topics.length := by
  induction topics generalizing known with
  | nil => exact Nat.le_refl _
  | cons t topics ih =>
    have one := KeyMap.size_put_le known t.1 (capability? t.2)
    have others := ih (known.put t.1 (capability? t.2))
    rw [List.foldl_cons, List.length_cons]
    omega

end

section

variable {topics : List (String × Nat × Nat)}

/-- If no topic is there twice, **each is served as its numbers say, or not at all**. -/
theorem get?_served_of_mem (distinct : (topics.map Prod.fst).Nodup) {t : String × Nat × Nat}
    (h : t ∈ topics) : (served topics).get? t.1 = capability? t.2 :=
  get?_foldl_put_of_mem .empty distinct h

theorem mem_of_mem_keys_served {name : String} (h : name ∈ (served topics).keys) :
    ∃ t ∈ topics, t.1 = name := by
  refine Classical.byContradiction fun none_there => ?_
  obtain ⟨cap, found⟩ := KeyMap.mem_keys_iff.1 h
  have other : ∀ t ∈ topics, t.1 ≠ name := fun t there same => none_there ⟨t, there, same⟩
  rw [served, get?_foldl_put_of_forall_ne _ other] at found
  cases found

theorem size_served_le (topics : List (String × Nat × Nat)) :
    (served topics).size ≤ topics.length :=
  Nat.le_trans (size_foldl_put_le .empty) (Nat.le_of_eq (Nat.zero_add _))

end

/-! ## The whole -/

/-- The parts that are read come from a map whose keys are texts. -/
theorem ofPack?_eq_some {v : Pack} {raw : Raw} (found : Raw.ofPack? v = some raw) :
    ∃ texts, v = .map (texts.map packEntry) ∧ valuesOf "host" texts = [packText raw.host] ∧
      statusWord? texts = some raw.status ∧ topics? texts = some raw.topics := by
  cases v with
  | map entries =>
    simp only [Raw.ofPack?, Option.bind_eq_bind, Option.bind_eq_some_iff] at found
    obtain ⟨texts, keys, host, hosts, word, status, topics, others, same⟩ := found
    cases same
    rw [textEntries?_eq_some_iff] at keys
    exact ⟨texts, keys ▸ rfl, host?_eq_some_iff.1 hosts, status, others⟩
  | _ => cases found

theorem ofPack?_map {texts : List (String × Pack)} {host word : String}
    {topics : List (String × Nat × Nat)} (hosts : valuesOf "host" texts = [packText host])
    (status : statusWord? texts = some word) (others : topics? texts = some topics) :
    Raw.ofPack? (.map (texts.map packEntry)) = some ⟨host, word, topics⟩ := by
  simp only [Raw.ofPack?, textEntries?_eq_some_iff.2 rfl, host?_eq_some_iff.2 hosts, status,
    others, Option.bind_eq_bind, Option.bind_some]
  rfl

end TopicMesh.Announcement
