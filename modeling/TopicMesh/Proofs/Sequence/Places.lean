import Mathlib.Data.List.Induction

/-!
# Places and parts of a list

What is kept of a history is often said of each of its places: of what happened there and
of what had happened before.  A history that goes on has its old places and one new place
(`forall_split_concat`).  What happened at some places is numbered without a gap, if and
only if each number is the count of those places before it (`map_filter_eq_range_iff`).

A list that is split at some of its members comes in parts that hold none of that kind
(`not_of_mem_splitOnP`).
-/

namespace TopicMesh

variable {α : Type}

/-- A property of all places of a list, and of one more at its end. -/
theorem forall_split_concat {P : List α → α → Prop} {l : List α} {b : α} :
    (∀ past a later, l ++ [b] = past ++ a :: later → P past a) ↔
      (∀ past a later, l = past ++ a :: later → P past a) ∧ P l b := by
  constructor
  · intro all
    refine ⟨fun past a later split => all past a (later ++ [b]) ?_, all l b [] rfl⟩
    rw [split, List.append_assoc, List.cons_append]
  · rintro ⟨all, last⟩ past a later split
    rcases List.eq_nil_or_concat later with rfl | ⟨front, c, rfl⟩
    · obtain ⟨rfl, same⟩ := List.append_inj' split rfl
      cases same
      exact last
    · rw [List.concat_eq_append, ← List.cons_append, ← List.append_assoc] at split
      exact all past a front (List.append_inj' split rfl).1

/-- What is picked out of a list is valued 0, 1, 2, …, if and only if each is valued by
how many are picked before it. -/
theorem map_filter_eq_range_iff (p : α → Bool) (f : α → Nat) (l : List α) :
    (l.filter p).map f = List.range (l.filter p).length ↔
      ∀ past a later, l = past ++ a :: later → p a = true → f a = past.countP p := by
  induction l using List.reverseRecOn with
  | nil => simp
  | append_singleton l b ih =>
    rw [forall_split_concat (P := fun past a => p a = true → f a = past.countP p), ← ih,
      List.filter_append, List.countP_eq_length_filter]
    cases picked : p b with
    | false => simp [picked]
    | true =>
      rw [List.filter_cons_of_pos picked, List.filter_nil, List.map_append, List.length_append,
        List.length_singleton, List.range_succ, List.map_singleton]
      constructor
      · intro same
        obtain ⟨front, back⟩ := List.append_inj' same rfl
        exact ⟨front, fun _ => (List.cons.inj back).1⟩
      · rintro ⟨front, back⟩
        rw [front, back rfl]

/-- No part of a split list holds what it was split at. -/
theorem not_of_mem_splitOnP {p : α → Bool} {part l : List α} (is_part : part ∈ l.splitOnP p) :
    ∀ a ∈ part, p a = false := by
  induction l generalizing part with
  | nil =>
    obtain rfl := List.mem_singleton.1 is_part
    exact fun _ => nofun
  | cons b l ih =>
    rw [List.splitOnP_cons_eq_if_modifyHead] at is_part
    split at is_part
    · obtain rfl | later := List.mem_cons.1 is_part
      · exact fun _ => nofun
      · exact ih later
    next stays =>
    -- The first member joins the first part of the rest.
    cases rest : l.splitOnP p with
    | nil => exact absurd rest (List.splitOnP_ne_nil p l)
    | cons first others =>
      rw [rest, List.modifyHead_cons] at is_part
      obtain rfl | later := List.mem_cons.1 is_part
      · rintro a (_ | ⟨_, within⟩)
        · simpa using stays
        · exact ih (rest ▸ List.mem_cons_self) a within
      · exact ih (rest ▸ List.mem_cons_of_mem _ later)

end TopicMesh
