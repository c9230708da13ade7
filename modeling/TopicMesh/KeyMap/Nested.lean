import TopicMesh.KeyMap

/-!
# Maps of maps

A table with two keys is a map of maps.  `within` changes one inner map and drops
it when that leaves it empty, so that the outer keys are just those below which
something is stored.  `at₂?` reads under two keys, and `at₂?_within` says what a
change does to that reading.
-/

namespace TopicMesh.KeyMap

open Std

variable {κ κ' ν : Type} [Ord κ] [Ord κ']

/-- The value under two keys. -/
def at₂? (m : KeyMap κ (KeyMap κ' ν)) (k : κ) (k' : κ') : Option ν :=
  (m.get? k).bind fun inner => inner.get? k'

/-- The inner map of a key, empty if there is none. -/
def innerOf (m : KeyMap κ (KeyMap κ' ν)) (k : κ) : KeyMap κ' ν :=
  (m.get? k).getD empty

/-- A map unless it is empty. -/
def nonEmpty? (m : KeyMap κ ν) : Option (KeyMap κ ν) :=
  if m.isEmpty then none else some m

/-- Changes the inner map of a key. -/
def within [TransOrd κ] [LawfulEqOrd κ] (m : KeyMap κ (KeyMap κ' ν)) (k : κ)
    (change : KeyMap κ' ν → KeyMap κ' ν) : KeyMap κ (KeyMap κ' ν) :=
  m.put k (change (m.innerOf k)).nonEmpty?

/-- Changes every inner map, and drops those that are left empty. -/
def everywhere (m : KeyMap κ (KeyMap κ' ν)) (change : KeyMap κ' ν → KeyMap κ' ν) :
    KeyMap κ (KeyMap κ' ν) :=
  (m.mapValues fun _ inner => change inner).filter fun _ inner => !inner.isEmpty

/-- Whether no inner map is empty. -/
def NoneEmpty (m : KeyMap κ (KeyMap κ' ν)) : Prop :=
  ∀ k inner, m.get? k = some inner → inner.isEmpty = false

theorem get?_put [TransOrd κ] [LawfulEqOrd κ] [DecidableEq κ] (m : KeyMap κ ν) (k k' : κ)
    (v : Option ν) : (m.put k v).get? k' = if k = k' then v else m.get? k' := by
  cases v with
  | none => exact get?_erase m k k'
  | some v => exact get?_insert m k k' v

theorem eq_empty_of_isEmpty {m : KeyMap κ ν} (h : m.isEmpty = true) : m = empty := by
  obtain ⟨l, hl⟩ := m
  cases l with
  | nil => rfl
  | cons => cases h

theorem at₂?_eq (m : KeyMap κ (KeyMap κ' ν)) (k : κ) (k' : κ') :
    m.at₂? k k' = (m.innerOf k).get? k' := by
  unfold at₂? innerOf
  cases m.get? k <;> rfl

theorem at₂?_within [TransOrd κ] [LawfulEqOrd κ] [DecidableEq κ]
    (m : KeyMap κ (KeyMap κ' ν)) (k l : κ) (l' : κ') (change : KeyMap κ' ν → KeyMap κ' ν) :
    (m.within k change).at₂? l l' =
      if k = l then (change (m.innerOf k)).get? l' else m.at₂? l l' := by
  unfold at₂? within
  rw [get?_put]
  by_cases h : k = l
  · simp only [h, if_true, nonEmpty?]
    split
    · next he => rw [eq_empty_of_isEmpty he]; rfl
    · rfl
  · simp [h]

theorem noneEmpty_empty : (empty : KeyMap κ (KeyMap κ' ν)).NoneEmpty := by
  intro k inner h
  cases h

theorem noneEmpty_within [TransOrd κ] [LawfulEqOrd κ] [DecidableEq κ]
    {m : KeyMap κ (KeyMap κ' ν)} (h : m.NoneEmpty) (k : κ)
    (change : KeyMap κ' ν → KeyMap κ' ν) : (m.within k change).NoneEmpty := by
  intro l inner hl
  unfold within at hl
  rw [get?_put] at hl
  by_cases hk : k = l
  · simp only [hk, if_true, nonEmpty?] at hl
    split at hl
    · cases hl
    · next he => cases hl; simpa using he
  · simp only [hk, if_false] at hl
    exact h l inner hl

theorem noneEmpty_everywhere (m : KeyMap κ (KeyMap κ' ν))
    [LawfulEqOrd κ] (change : KeyMap κ' ν → KeyMap κ' ν) : (m.everywhere change).NoneEmpty := by
  intro k inner h
  rw [everywhere, get?_filter] at h
  have := (Option.filter_eq_some_iff.1 h).2
  simpa using this

end TopicMesh.KeyMap
