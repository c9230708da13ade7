import TopicMesh.KeyMap.Nested

/-!
# Reading finite maps

What the operations of `KeyMap` that are built from `insert`, `erase` and `filter`
do to a look-up: `get?_modify` for a changed value, `at₂?_everywhere` and
`innerOf_within` for maps of maps.  With `mem_entries_iff` a listing is read off
look-ups as well (`filter_entries_key`).
-/

namespace TopicMesh.KeyMap

open Std

variable {κ κ' ν : Type} [Ord κ] [Ord κ'] [LawfulEqOrd κ]

omit [LawfulEqOrd κ] in
theorem contains_eq_true {m : KeyMap κ ν} {k : κ} :
    m.contains k = true ↔ ∃ v, m.get? k = some v :=
  Option.isSome_iff_exists

theorem get?_modify [TransOrd κ] [DecidableEq κ] (m : KeyMap κ ν) (k k' : κ) (f : ν → ν) :
    (m.modify k f).get? k' = if k = k' then (m.get? k').map f else m.get? k' := by
  unfold modify
  cases h : m.get? k with
  | none =>
    by_cases hk : k = k'
    · subst hk; simp [h]
    · simp [hk]
  | some v =>
    rw [get?_insert]
    by_cases hk : k = k'
    · subst hk; simp [h]
    · simp [hk]

omit [LawfulEqOrd κ] in
theorem innerOf_eq_of_get? {m : KeyMap κ (KeyMap κ' ν)} {k : κ} {inner : KeyMap κ' ν}
    (h : m.get? k = some inner) : m.innerOf k = inner := by
  simp [innerOf, h]

theorem innerOf_within [TransOrd κ] [DecidableEq κ] (m : KeyMap κ (KeyMap κ' ν)) (k l : κ)
    (change : KeyMap κ' ν → KeyMap κ' ν) :
    (m.within k change).innerOf l = if k = l then change (m.innerOf k) else m.innerOf l := by
  unfold within
  rw [innerOf, get?_put]
  by_cases h : k = l
  · simp only [h, if_true, nonEmpty?]
    split
    · next he => exact (eq_empty_of_isEmpty he).symm
    · rfl
  · simp only [h, if_false]
    rfl

theorem innerOf_erase [DecidableEq κ] (m : KeyMap κ (KeyMap κ' ν)) (k l : κ) :
    (m.erase k).innerOf l = if k = l then empty else m.innerOf l := by
  rw [innerOf, get?_erase]
  split <;> rfl

theorem innerOf_everywhere (m : KeyMap κ (KeyMap κ' ν)) (change : KeyMap κ' ν → KeyMap κ' ν)
    (empty_stays : change empty = empty) (k : κ) :
    (m.everywhere change).innerOf k = change (m.innerOf k) := by
  unfold everywhere innerOf
  rw [get?_filter, get?_mapValues]
  cases m.get? k with
  | none => exact empty_stays.symm
  | some inner =>
    by_cases he : (change inner).isEmpty = true
    · have : (empty : KeyMap κ' ν).isEmpty = true := rfl
      simp [Option.filter, this, eq_empty_of_isEmpty he]
    · simp [Option.filter, he]

omit [LawfulEqOrd κ] in
theorem erase_empty (k : κ) : (empty : KeyMap κ ν).erase k = empty := rfl

/-- Of the entries of a map those with one key: at most one. -/
theorem filter_entries_key [TransOrd κ] [DecidableEq κ] (m : KeyMap κ ν) (k : κ) :
    (m.entries.filter fun e => e.1 = k) = (m.get? k).toList.map fun v => (k, v) := by
  obtain ⟨l, hl⟩ := m
  show l.filter _ = ((l.find? fun e => compare k e.1 == .eq).map Prod.snd).toList.map _
  induction l with
  | nil => rfl
  | cons a r ih =>
    have hr := List.pairwise_cons.1 hl
    rw [List.find?_cons, List.filter_cons]
    by_cases h : a.1 = k
    · subst h
      have none_left : (r.filter fun e => e.1 = a.1) = [] := by
        refine List.filter_eq_nil_iff.2 fun b hb he => ?_
        have hlt := hr.1 b hb
        rw [of_decide_eq_true he] at hlt
        have self : compare a.1 a.1 = .eq := ReflCmp.compare_self
        rw [self] at hlt
        cases hlt
      simp [none_left]
    · have hb : (compare k a.1 == .eq) = false := by
        simpa using fun e => h (Std.compare_eq_iff_eq.1 e).symm
      simpa [h, hb] using ih hr.2

/-- What is listed for the entries of a map of maps, restricted to what is listed for one
key: what is listed for the inner map of the key. -/
theorem filter_flatMap_entries [TransOrd κ] [DecidableEq κ] {α : Type}
    (m : KeyMap κ (KeyMap κ' ν)) (list : κ → KeyMap κ' ν → List α) (keep : α → Bool) (k : κ)
    (decides : ∀ e ∈ m.entries, ∀ a ∈ list e.1 e.2, keep a = decide (e.1 = k))
    (none : list k empty = []) :
    (m.entries.flatMap fun e => list e.1 e.2).filter keep = list k (m.innerOf k) := by
  have restrict : ∀ l : List (κ × KeyMap κ' ν),
      (∀ e ∈ l, ∀ a ∈ list e.1 e.2, keep a = decide (e.1 = k)) →
        (l.flatMap fun e => list e.1 e.2).filter keep =
          (l.filter fun e => e.1 = k).flatMap fun e => list e.1 e.2 := by
    intro l decides
    induction l with
    | nil => rfl
    | cons e rest ih =>
      rw [List.flatMap_cons, List.filter_append,
        ih fun e' he => decides e' (List.mem_cons_of_mem _ he), List.filter_cons]
      have head := decides e List.mem_cons_self
      by_cases same : e.1 = k
      · rw [List.filter_eq_self.2 fun a ha => by simpa [same] using head a ha,
          if_pos (by simpa using same), List.flatMap_cons]
      · rw [List.filter_eq_nil_iff.2 fun a ha => by simpa [same] using head a ha,
          if_neg (by simpa using same), List.nil_append]
  rw [restrict m.entries decides, filter_entries_key, innerOf]
  cases m.get? k with
  | none => exact none.symm
  | some inner => exact List.append_nil _

theorem mem_keys_iff {m : KeyMap κ ν} {k : κ} : k ∈ m.keys ↔ ∃ v, m.get? k = some v := by
  unfold keys
  rw [List.mem_map]
  constructor
  · rintro ⟨⟨k', v⟩, he, rfl⟩
    exact ⟨v, mem_entries_iff.1 he⟩
  · rintro ⟨v, hv⟩
    exact ⟨(k, v), mem_entries_iff.2 hv, rfl⟩

theorem mem_values_iff {m : KeyMap κ ν} {v : ν} : v ∈ m.values ↔ ∃ k, m.get? k = some v := by
  unfold values
  rw [List.mem_map]
  constructor
  · rintro ⟨⟨k, v'⟩, he, rfl⟩
    exact ⟨k, mem_entries_iff.1 he⟩
  · rintro ⟨k, h⟩
    exact ⟨(k, v), mem_entries_iff.2 h, rfl⟩

theorem mem_keys_of_insert [TransOrd κ] [DecidableEq κ] {m : KeyMap κ ν} {k k' : κ} {v : ν}
    (h : k' ∈ (m.insert k v).keys) : k' = k ∨ k' ∈ m.keys := by
  obtain ⟨v', hv⟩ := mem_keys_iff.1 h
  rw [get?_insert] at hv
  split at hv
  · next same => exact .inl same.symm
  · exact .inr (mem_keys_iff.2 ⟨v', hv⟩)

omit [LawfulEqOrd κ] in
theorem mem_keys_of_erase {m : KeyMap κ ν} {k k' : κ} (h : k' ∈ (m.erase k).keys) :
    k' ∈ m.keys := by
  obtain ⟨e, he, rfl⟩ := List.mem_map.1 h
  exact List.mem_map_of_mem (List.mem_filter.1 he).1

theorem erase_of_get?_eq_none [TransOrd κ] [DecidableEq κ] {m : KeyMap κ ν} {k : κ}
    (h : m.get? k = none) : m.erase k = m := by
  refine ext_get? fun k' => ?_
  rw [get?_erase]
  split
  · next same => rw [← same, h]
  · rfl

theorem erase_eq_self_iff [TransOrd κ] [DecidableEq κ] {m : KeyMap κ ν} {k : κ} :
    m.erase k = m ↔ m.get? k = none := by
  refine ⟨fun same => ?_, erase_of_get?_eq_none⟩
  rw [← same, get?_erase, if_pos rfl]

theorem insert_eq_self_iff [TransOrd κ] [DecidableEq κ] {m : KeyMap κ ν} {k : κ} {v : ν} :
    m.insert k v = m ↔ m.get? k = some v := by
  constructor
  · intro same
    rw [← same, get?_insert, if_pos rfl]
  · intro there
    refine ext_get? fun k' => ?_
    rw [get?_insert]
    split
    · next same => rw [← same, there]
    · rfl

/-- Erasing a key leaves nothing of what was inserted for it. -/
theorem erase_insert [TransOrd κ] [DecidableEq κ] (m : KeyMap κ ν) (k : κ) (v : ν) :
    (m.insert k v).erase k = m.erase k := by
  refine ext_get? fun k' => ?_
  rw [get?_erase, get?_erase, get?_insert]
  split <;> rfl

/-- The values of a map are that of a key, if it has one, and those of the other keys. -/
theorem values_perm [TransOrd κ] [DecidableEq κ] (m : KeyMap κ ν) (k : κ) :
    m.values.Perm ((m.get? k).toList ++ (m.erase k).values) := by
  have others : (m.erase k).entries = m.entries.filter fun e => !decide (e.1 = k) := by
    refine List.filter_congr fun e _ => ?_
    by_cases same : e.1 = k
    · subst same
      simp
    · have apart : compare k e.1 ≠ .eq := fun eq => same (Std.compare_eq_iff_eq.1 eq).symm
      simp [same, apart]
  have here : (m.get? k).toList = (m.entries.filter fun e => e.1 = k).map Prod.snd := by
    rw [filter_entries_key, List.map_map]
    exact (List.map_id _).symm
  unfold values
  rw [here, others, ← List.map_append]
  exact (List.filter_append_perm _ _).symm.map Prod.snd

theorem values_insert_perm [TransOrd κ] [DecidableEq κ] (m : KeyMap κ ν) (k : κ) (v : ν) :
    (m.insert k v).values.Perm (v :: (m.erase k).values) := by
  have parts := (m.insert k v).values_perm k
  rwa [get?_insert, if_pos rfl, erase_insert] at parts

theorem isEmpty_iff {m : KeyMap κ ν} : m.isEmpty = true ↔ ∀ k, m.get? k = none := by
  constructor
  · intro h k
    rw [eq_empty_of_isEmpty h]
    rfl
  · intro h
    obtain ⟨l, hl⟩ := m
    cases l with
    | nil => rfl
    | cons e rest =>
      have : (⟨e :: rest, hl⟩ : KeyMap κ ν).get? e.1 = some e.2 :=
        mem_entries_iff.1 List.mem_cons_self
      rw [h e.1] at this
      cases this

omit [LawfulEqOrd κ] in
theorem length_place_le (k : κ) (v : ν) (l : List (κ × ν)) :
    (place k v l).length ≤ l.length + 1 := by
  induction l with
  | nil => exact Nat.le_refl 1
  | cons a r ih =>
    unfold place
    split <;> simp only [List.length_cons] <;> omega

/-- Storing a value, or none, makes a map larger by one entry at most. -/
theorem size_put_le [TransOrd κ] (m : KeyMap κ ν) (k : κ) (v : Option ν) :
    (m.put k v).size ≤ m.size + 1 := by
  cases v with
  | none => exact Nat.le_succ_of_le (List.length_filter_le ..)
  | some v => exact length_place_le k v m.entries

theorem exists_of_not_isEmpty {m : KeyMap κ ν} (h : m.isEmpty = false) :
    ∃ k v, m.get? k = some v := by
  cases hm : m.entries with
  | nil => simp [isEmpty, hm] at h
  | cons e rest => exact ⟨e.1, e.2, mem_entries_iff.1 (by rw [hm]; exact List.mem_cons_self)⟩

/-! ## Maps made of lists -/

omit [LawfulEqOrd κ] in
/-- The keys of a listing differ. -/
theorem entries_distinct [ReflOrd κ] (m : KeyMap κ ν) :
    m.entries.Pairwise fun a b => a.1 ≠ b.1 :=
  m.ascending.imp fun {a b} lt same => by
    have self : compare b.1 b.1 = .eq := ReflCmp.compare_self
    rw [same, self] at lt
    cases lt

section

variable [TransOrd κ] [DecidableEq κ] {α : Type} (key : α → κ) (value : α → ν)

theorem get?_foldl_insert_of_forall_ne {l : List α} {k : κ} (h : ∀ a ∈ l, key a ≠ k)
    (m : KeyMap κ ν) :
    (l.foldl (fun m a => m.insert (key a) (value a)) m).get? k = m.get? k := by
  induction l generalizing m with
  | nil => rfl
  | cons a l ih =>
    rw [List.foldl_cons, ih fun b hb => h b (List.mem_cons_of_mem _ hb), get?_insert,
      if_neg (h a List.mem_cons_self)]

theorem get?_foldl_insert_of_mem {l : List α} (distinct : l.Pairwise fun a b => key a ≠ key b)
    {a : α} (h : a ∈ l) (m : KeyMap κ ν) :
    (l.foldl (fun m a => m.insert (key a) (value a)) m).get? (key a) = some (value a) := by
  induction l generalizing m with
  | nil => cases h
  | cons b l ih =>
    obtain ⟨others, rest⟩ := List.pairwise_cons.1 distinct
    rw [List.foldl_cons]
    rcases List.mem_cons.1 h with rfl | h
    · rw [get?_foldl_insert_of_forall_ne key value fun c hc => (others c hc).symm, get?_insert, if_pos rfl]
    · exact ih rest h _

/-- What a map made of pairs holds is one of the pairs. -/
theorem mem_of_get?_ofList {pairs : List (κ × ν)} {k : κ} {v : ν}
    (h : (ofList pairs).get? k = some v) : (k, v) ∈ pairs := by
  have grows : ∀ (pairs : List (κ × ν)) (m : KeyMap κ ν),
      (pairs.foldl (fun m e => m.insert e.1 e.2) m).get? k = some v →
        (k, v) ∈ pairs ∨ m.get? k = some v := by
    intro pairs
    induction pairs with
    | nil => exact fun _ h => .inr h
    | cons e rest ih =>
      intro m h
      rcases ih _ h with mem | there
      · exact .inl (List.mem_cons_of_mem e mem)
      · rw [get?_insert] at there
        split at there
        · next same =>
          cases there
          subst same
          exact .inl List.mem_cons_self
        · exact .inr there
  rcases grows pairs empty h with mem | there
  · exact mem
  · cases there

/-- A map is made of its listing again. -/
theorem foldl_insert_entries (m : KeyMap κ ν) :
    (m.entries.foldl (fun m e => m.insert e.1 e.2) empty) = m := by
  refine ext_get? fun k => ?_
  cases h : m.get? k with
  | some v =>
    exact get?_foldl_insert_of_mem Prod.fst Prod.snd m.entries_distinct
      (mem_entries_iff.2 h) empty
  | none =>
    refine get?_foldl_insert_of_forall_ne Prod.fst Prod.snd (fun e he hk => ?_) empty
    rw [mem_entries_iff.1 (show (k, e.2) ∈ m.entries from hk ▸ he)] at h
    cases h

end

end TopicMesh.KeyMap
