import Mathlib.Logic.Function.Conjugate
import TopicMesh.Proofs.KeyMap.Reading

/-!
# Changing maps of maps

Changes of maps of maps drop the inner maps that they leave empty, and so go beyond the
keys that they are about.  They commute if the changes of the inner maps do
(`within_comm`, `everywhere_within_comm`, `everywhere_comm`), and one that leaves an inner
map with something in it as it is leaves all as it is (`within_eq_self`).
-/

namespace TopicMesh.KeyMap

open Std

variable {κ κ' ν : Type} [Ord κ] [Ord κ'] [LawfulEqOrd κ]

section

variable [TransOrd κ] [DecidableEq κ]

theorem put_get? (m : KeyMap κ ν) (k : κ) : m.put k (m.get? k) = m := by
  refine ext_get? fun l => ?_
  rw [get?_put]
  split
  · next same => rw [same]
  · rfl

theorem put_comm (m : KeyMap κ ν) {k l : κ} (ne : k ≠ l) (v w : Option ν) :
    (m.put k v).put l w = (m.put l w).put k v := by
  refine ext_get? fun j => ?_
  simp only [get?_put]
  by_cases hk : k = j
  · simp only [hk, if_true, if_neg fun hl : l = j => ne (hk.trans hl.symm)]
  · simp only [hk, if_false]

theorem innerOf_put_of_ne (m : KeyMap κ (KeyMap κ' ν)) {k l : κ} (ne : k ≠ l)
    (v : Option (KeyMap κ' ν)) : (m.put k v).innerOf l = m.innerOf l := by
  rw [innerOf, get?_put, if_neg ne]
  rfl

theorem get?_within (m : KeyMap κ (KeyMap κ' ν)) (k l : κ) (f : KeyMap κ' ν → KeyMap κ' ν) :
    (m.within k f).get? l = if k = l then (f (m.innerOf k)).nonEmpty? else m.get? l :=
  get?_put ..

/-- A change of an inner map that has something in it, and stays as it is. -/
theorem within_eq_self {m : KeyMap κ (KeyMap κ' ν)} {k : κ} {f : KeyMap κ' ν → KeyMap κ' ν}
    (same : f (m.innerOf k) = m.innerOf k) (filled : m.innerOf k ≠ empty) :
    m.within k f = m := by
  have stored : (m.innerOf k).nonEmpty? = m.get? k := by
    rw [nonEmpty?, if_neg fun nothing => filled (eq_empty_of_isEmpty nothing)]
    unfold innerOf at filled ⊢
    cases there : m.get? k with
    | none =>
      rw [there] at filled
      exact absurd rfl filled
    | some inner => rfl
  rw [within, same, stored, put_get?]

/-- Changes of inner maps commute, if they do for one map where they meet. -/
theorem within_comm (m : KeyMap κ (KeyMap κ' ν)) {k l : κ} {f g : KeyMap κ' ν → KeyMap κ' ν}
    (comm : k = l → Function.Commute f g) :
    (m.within k f).within l g = (m.within l g).within k f := by
  by_cases same : k = l
  · subst same
    refine ext_get? fun j => ?_
    simp only [get?_within, innerOf_within, if_true, (comm rfl).eq]
    split <;> rfl
  · unfold within
    rw [innerOf_put_of_ne _ same, innerOf_put_of_ne _ (Ne.symm same), put_comm _ same]

end

theorem get?_everywhere (m : KeyMap κ (KeyMap κ' ν)) (f : KeyMap κ' ν → KeyMap κ' ν) (k : κ) :
    (m.everywhere f).get? k = (m.get? k).bind fun inner => (f inner).nonEmpty? := by
  unfold everywhere nonEmpty?
  rw [get?_filter, get?_mapValues]
  cases m.get? k with
  | none => rfl
  | some inner => cases h : (f inner).isEmpty <;> simp [Option.filter, h]

omit [Ord κ] [LawfulEqOrd κ] in
/-- What is left of a map after another change, nothing if nothing is left. -/
theorem nonEmpty?_bind {f : KeyMap κ' ν → KeyMap κ' ν} (empty_stays : f empty = empty)
    (m : KeyMap κ' ν) : (m.nonEmpty?.bind fun inner => (f inner).nonEmpty?) = (f m).nonEmpty? := by
  unfold nonEmpty?
  split
  · next none_left =>
    rw [eq_empty_of_isEmpty none_left, empty_stays]
    rfl
  · rfl

theorem everywhere_within_comm [TransOrd κ] [DecidableEq κ] (m : KeyMap κ (KeyMap κ' ν)) (k : κ)
    {f g : KeyMap κ' ν → KeyMap κ' ν} (empty_stays : f empty = empty)
    (comm : Function.Commute f g) :
    (m.within k g).everywhere f = (m.everywhere f).within k g := by
  refine ext_get? fun j => ?_
  rw [get?_everywhere, get?_within, get?_within, innerOf_everywhere m f empty_stays, ← comm.eq]
  split
  · exact nonEmpty?_bind empty_stays _
  · rw [get?_everywhere]

theorem everywhere_comm [TransOrd κ] (m : KeyMap κ (KeyMap κ' ν)) {f g : KeyMap κ' ν → KeyMap κ' ν}
    (f_empty : f empty = empty) (g_empty : g empty = empty) (comm : Function.Commute f g) :
    (m.everywhere f).everywhere g = (m.everywhere g).everywhere f := by
  refine ext_get? fun k => ?_
  simp only [get?_everywhere, Option.bind_assoc, nonEmpty?_bind f_empty, nonEmpty?_bind g_empty,
    comm.eq]

end TopicMesh.KeyMap
