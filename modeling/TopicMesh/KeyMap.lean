/-!
# Finite maps in ascending key order

Every table of a mesh is looked up by key and listed in key order: topics and
hosts in the order of their characters, ports by number.  A `KeyMap` keeps its
entries in strictly ascending key order, and that order is part of the type, so
that **two maps with the same look-ups are the same map** (`ext_get?`).

The reading of a map is `get?`.  Each operation says what it does to that
reading (`get?_insert`, `get?_erase`, `get?_filter`, `get?_mapValues`), and
`mem_entries_iff` ties the listing to it: a pair is listed exactly when it is
looked up.
-/

namespace TopicMesh

open Std

/-- **A finite map**: its entries, each key once, keys ascending. -/
structure KeyMap (κ ν : Type) [Ord κ] where
  /-- The pairs of a key and its value. -/
  entries : List (κ × ν)
  /-- The keys ascend strictly. -/
  ascending : entries.Pairwise fun a b => compare a.1 b.1 = .lt

namespace KeyMap

variable {κ ν μ : Type} [Ord κ]

/-- The map without entries. -/
def empty : KeyMap κ ν := ⟨[], .nil⟩

instance : Inhabited (KeyMap κ ν) := ⟨empty⟩

instance [DecidableEq κ] [DecidableEq ν] : DecidableEq (KeyMap κ ν) := fun m m' =>
  if h : m.entries = m'.entries then
    .isTrue (by cases m; cases m'; cases h; rfl)
  else
    .isFalse fun e => h (e ▸ rfl)

/-- The value stored under a key. -/
def get? (m : KeyMap κ ν) (k : κ) : Option ν :=
  (m.entries.find? fun e => compare k e.1 == .eq).map Prod.snd

/-- Whether a key has a value. -/
def contains (m : KeyMap κ ν) (k : κ) : Bool :=
  (m.get? k).isSome

/-- The keys, ascending. -/
def keys (m : KeyMap κ ν) : List κ :=
  m.entries.map Prod.fst

/-- The values, in the order of their keys. -/
def values (m : KeyMap κ ν) : List ν :=
  m.entries.map Prod.snd

/-- The number of entries. -/
def size (m : KeyMap κ ν) : Nat :=
  m.entries.length

/-- Whether the map has no entry. -/
def isEmpty (m : KeyMap κ ν) : Bool :=
  m.entries.isEmpty

/-- Keeps the entries that satisfy a test. -/
def filter (m : KeyMap κ ν) (keep : κ → ν → Bool) : KeyMap κ ν :=
  ⟨m.entries.filter fun e => keep e.1 e.2, m.ascending.filter _⟩

/-- Replaces every value by a function of its key and itself. -/
def mapValues (m : KeyMap κ ν) (f : κ → ν → μ) : KeyMap κ μ :=
  ⟨m.entries.map fun e => (e.1, f e.1 e.2),
    List.pairwise_map.2 m.ascending⟩

/-- Puts a pair at its place in an ascending list, over an equal key. -/
def place (k : κ) (v : ν) : List (κ × ν) → List (κ × ν)
  | [] => [(k, v)]
  | e :: rest =>
    match compare k e.1 with
    | .lt => (k, v) :: e :: rest
    | .eq => (k, v) :: rest
    | .gt => e :: place k v rest

/-- Drops the entry of a key. -/
def erase (m : KeyMap κ ν) (k : κ) : KeyMap κ ν :=
  m.filter fun k' _ => compare k k' != .eq

section Placing

theorem mem_place {k : κ} {v : ν} {l : List (κ × ν)} {e : κ × ν} (h : e ∈ place k v l) :
    e = (k, v) ∨ e ∈ l := by
  induction l with
  | nil => simpa [place] using h
  | cons a r ih =>
    unfold place at h
    split at h
    · simpa using h
    · rcases List.mem_cons.1 h with h | h
      · exact .inl h
      · exact .inr (List.mem_cons_of_mem _ h)
    · rcases List.mem_cons.1 h with h | h
      · exact .inr (h ▸ List.mem_cons_self)
      · exact (ih h).imp id (List.mem_cons_of_mem _)

variable [TransOrd κ] [LawfulEqOrd κ]

theorem ascending_place {k : κ} {v : ν} {l : List (κ × ν)}
    (h : l.Pairwise fun a b => compare a.1 b.1 = .lt) :
    (place k v l).Pairwise fun a b => compare a.1 b.1 = .lt := by
  induction l with
  | nil => simp [place]
  | cons a r ih =>
    have hr := List.pairwise_cons.1 h
    unfold place
    split
    · next hlt =>
      refine List.pairwise_cons.2 ⟨fun b hb => ?_, h⟩
      rcases List.mem_cons.1 hb with rfl | hb
      · exact hlt
      · exact TransCmp.lt_trans hlt (hr.1 b hb)
    · next heq =>
      have : k = a.1 := Std.compare_eq_iff_eq.1 heq
      exact List.pairwise_cons.2 ⟨fun b hb => this ▸ hr.1 b hb, hr.2⟩
    · next hgt =>
      refine List.pairwise_cons.2 ⟨fun b hb => ?_, ih hr.2⟩
      rcases mem_place hb with rfl | hb
      · exact OrientedCmp.lt_of_gt hgt
      · exact hr.1 b hb

end Placing

variable [TransOrd κ] [LawfulEqOrd κ]

/-- Stores a value under a key, over the value that was there. -/
def insert (m : KeyMap κ ν) (k : κ) (v : ν) : KeyMap κ ν :=
  ⟨place k v m.entries, ascending_place m.ascending⟩

/-- The map of a list of pairs; of two pairs with one key the later counts. -/
def ofList (pairs : List (κ × ν)) : KeyMap κ ν :=
  pairs.foldl (fun m e => m.insert e.1 e.2) empty

/-- Changes the value of a key, if it has one. -/
def modify (m : KeyMap κ ν) (k : κ) (f : ν → ν) : KeyMap κ ν :=
  match m.get? k with
  | some v => m.insert k (f v)
  | none => m

/-- Stores the value of a key, or drops the key when there is none. -/
def put (m : KeyMap κ ν) (k : κ) : Option ν → KeyMap κ ν
  | some v => m.insert k v
  | none => m.erase k

/-! ## What the operations do to the reading -/

omit [TransOrd κ] [LawfulEqOrd κ] in
@[simp] theorem get?_empty (k : κ) : (empty : KeyMap κ ν).get? k = none := rfl

omit [TransOrd κ] in
theorem mem_entries_iff {m : KeyMap κ ν} {k : κ} {v : ν} :
    (k, v) ∈ m.entries ↔ m.get? k = some v := by
  obtain ⟨l, hl⟩ := m
  show (k, v) ∈ l ↔ (l.find? fun e => compare k e.1 == .eq).map Prod.snd = some v
  induction l with
  | nil => simp
  | cons a r ih =>
    have hr := List.pairwise_cons.1 hl
    rw [List.find?_cons, List.mem_cons]
    by_cases h : compare k a.1 = .eq
    · have hk : k = a.1 := Std.compare_eq_iff_eq.1 h
      have hnot : (k, v) ∉ r := fun hm => by
        have hlt := hr.1 (k, v) hm
        simp [← hk] at hlt
      simp only [h, beq_self_eq_true, Option.map_some, Option.some.injEq, hnot, or_false]
      constructor
      · rintro rfl; rfl
      · intro hv; exact Prod.ext hk hv.symm
    · have hne : (k, v) ≠ a := fun e => h (by rw [← e]; exact ReflCmp.compare_self)
      have hb : (compare k a.1 == .eq) = false := by simpa using h
      simp [hb, hne, ih hr.2]

theorem get?_insert [DecidableEq κ] (m : KeyMap κ ν) (k k' : κ) (v : ν) :
    (m.insert k v).get? k' = if k = k' then some v else m.get? k' := by
  obtain ⟨l, hl⟩ := m
  show ((place k v l).find? _).map _ = if _ then _ else (l.find? _).map _
  clear hl
  have self : (compare k k == .eq) = true := by simp
  have other : k ≠ k' → (compare k' k == .eq) = false := fun h => by
    simpa using fun e => h (Std.compare_eq_iff_eq.1 e).symm
  induction l with
  | nil =>
    by_cases h : k = k'
    · subst h; simp [place]
    · simp [place, h, other h]
  | cons a r ih =>
    unfold place
    split
    · by_cases h : k = k'
      · subst h; simp
      · simp [h, other h]
    · next heq =>
      have hka : k = a.1 := Std.compare_eq_iff_eq.1 heq
      by_cases h : k = k'
      · subst h; simp
      · simp [← hka, h, other h]
    · next hgt =>
      rw [List.find?_cons, List.find?_cons]
      by_cases h : compare k' a.1 = .eq
      · have hn : ¬ k = k' := fun e => by rw [e, h] at hgt; cases hgt
        simp [h, hn]
      · have hb : (compare k' a.1 == .eq) = false := by simpa using h
        simpa [hb] using ih

omit [TransOrd κ] in
theorem get?_filter (m : KeyMap κ ν) (keep : κ → ν → Bool) (k : κ) :
    (m.filter keep).get? k = (m.get? k).filter (keep k) := by
  apply Option.ext
  intro v
  rw [← mem_entries_iff, Option.filter_eq_some_iff, ← mem_entries_iff]
  simp [filter]

omit [TransOrd κ] in
theorem get?_erase [DecidableEq κ] (m : KeyMap κ ν) (k k' : κ) :
    (m.erase k).get? k' = if k = k' then none else m.get? k' := by
  rw [erase, get?_filter]
  cases hg : m.get? k' <;> by_cases h : k = k' <;> simp [h, Option.filter]

omit [TransOrd κ] in
theorem get?_mapValues (m : KeyMap κ ν) (f : κ → ν → μ) (k : κ) :
    (m.mapValues f).get? k = (m.get? k).map (f k) := by
  apply Option.ext
  intro v
  rw [← mem_entries_iff, Option.map_eq_some_iff]
  simp only [mapValues, List.mem_map, Prod.mk.injEq]
  constructor
  · rintro ⟨⟨k₁, v₁⟩, hm, rfl, rfl⟩
    exact ⟨v₁, mem_entries_iff.1 hm, rfl⟩
  · rintro ⟨v₁, h, rfl⟩
    exact ⟨(k, v₁), mem_entries_iff.2 h, rfl, rfl⟩

theorem ext_get? {m m' : KeyMap κ ν} (h : ∀ k, m.get? k = m'.get? k) : m = m' := by
  have hmem : ∀ e, e ∈ m.entries ↔ e ∈ m'.entries := fun e => by
    rw [mem_entries_iff, mem_entries_iff, h]
  obtain ⟨l, hl⟩ := m
  obtain ⟨l', hl'⟩ := m'
  have : l = l' := by
    clear h
    replace hmem : ∀ e, e ∈ l ↔ e ∈ l' := hmem
    have irrefl : ∀ {a : κ × ν}, compare a.1 a.1 ≠ .lt := fun {a} e => by
      have self : compare a.1 a.1 = .eq := ReflCmp.compare_self
      rw [self] at e; cases e
    have asymm : ∀ {a b : κ × ν}, compare a.1 b.1 = .lt → compare b.1 a.1 ≠ .lt :=
      fun hab hba => irrefl (TransCmp.lt_trans hab hba)
    induction l generalizing l' with
    | nil =>
      cases l' with
      | nil => rfl
      | cons b s => exact absurd ((hmem b).2 List.mem_cons_self) (by simp)
    | cons a r ih =>
      cases l' with
      | nil => exact absurd ((hmem a).1 List.mem_cons_self) (by simp)
      | cons b s =>
        have ha := List.pairwise_cons.1 hl
        have hb := List.pairwise_cons.1 hl'
        have hab : a = b := by
          rcases List.mem_cons.1 ((hmem a).1 List.mem_cons_self) with h | h
          · exact h
          · rcases List.mem_cons.1 ((hmem b).2 List.mem_cons_self) with h' | h'
            · exact h'.symm
            · exact absurd (hb.1 _ h) (asymm (ha.1 _ h'))
        subst hab
        have : r = s := ih ha.2 s hb.2 fun e => by
          constructor
          · intro he
            rcases List.mem_cons.1 ((hmem e).1 (List.mem_cons_of_mem _ he)) with rfl | h
            · exact absurd (ha.1 _ he) irrefl
            · exact h
          · intro he
            rcases List.mem_cons.1 ((hmem e).2 (List.mem_cons_of_mem _ he)) with rfl | h
            · exact absurd (hb.1 _ he) irrefl
            · exact h
        rw [this]
  subst this
  rfl

end KeyMap

end TopicMesh
