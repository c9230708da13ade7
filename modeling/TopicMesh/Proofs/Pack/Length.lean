import TopicMesh.Pack.Reader

/-!
# How many bytes a value takes

A value cannot be read from fewer bytes than it has of its own (`least`): a text takes
one byte more than its length, an array or a map one more than its parts, and anything
else at least one.  **Whatever form was read, a reader has taken so many bytes**
(`takes_value?`).  Readers put together have taken the sum, and that is all the proof
needs to know of how values are nested (`Takes`).

So what is read from few bytes is small and has few parts.
-/

namespace TopicMesh.Pack

mutual

/-- The bytes that a value takes at least. -/
def least : Pack → Nat
  | blob bytes => bytes.length + 1
  | array items => leastItems items + 1
  | map entries => leastEntries entries + 1
  | nil | bool _ | unsigned .. | signed _ | float _ | extension .. => 1

/-- The bytes that some values take at least. -/
def leastItems : List Pack → Nat
  | [] => 0
  | item :: rest => item.least + leastItems rest

/-- The bytes that the entries of a map take at least. -/
def leastEntries : List (Pack × Pack) → Nat
  | [] => 0
  | (key, value) :: rest => key.least + value.least + leastEntries rest

end

theorem one_le_least (v : Pack) : 1 ≤ v.least := by
  cases v <;> simp [least]

/-- Every entry takes two bytes or more. -/
theorem two_mul_length_le (entries : List (Pack × Pack)) :
    2 * entries.length ≤ leastEntries entries := by
  induction entries with
  | nil => exact Nat.le_refl 0
  | cons e entries ih =>
    have := one_le_least e.1
    have := one_le_least e.2
    rw [leastEntries, List.length_cons]
    omega

/-- An entry is a part of the map that it is in. -/
theorem least_le_of_mem {entries : List (Pack × Pack)} {e : Pack × Pack} (h : e ∈ entries) :
    e.1.least + e.2.least ≤ leastEntries entries := by
  induction entries with
  | nil => cases h
  | cons e' entries ih =>
    rw [leastEntries]
    rcases List.mem_cons.1 h with rfl | h
    · exact Nat.le_add_right _ _
    · exact Nat.le_trans (ih h) (Nat.le_add_left _ _)

/-- Whether a reader takes at least so many bytes for what it finds. -/
def Takes {α : Type} (least : α → Nat) (read : Bytes → Option (α × Bytes)) : Prop :=
  ∀ ⦃bytes a rest⦄, read bytes = some (a, rest) → least a + rest.length ≤ bytes.length

/-- The bytes that are taken behind a head byte for what it announces. -/
def Head.behind : Head → Nat
  | .whole v => v.least - 1
  | _ => 0

section

variable {α β : Type} {read : Bytes → Option (α × Bytes)}

theorem Takes.map {f : α → β} {least : β → Nat} (takes : Takes (fun a => least (f a)) read) :
    Takes least fun bytes => (read bytes).map fun (a, rest) => (f a, rest) := by
  intro bytes b rest found
  obtain ⟨⟨a, rest'⟩, taken, same⟩ := Option.map_eq_some_iff.1 found
  cases same
  exact takes taken

theorem Takes.bind {least₁ : α → Nat} {least : β → Nat} {next : α → Bytes → Option (β × Bytes)}
    (takes : Takes least₁ read) (goesOn : ∀ a, Takes least (next a)) :
    Takes least fun bytes => (read bytes).bind fun (a, rest) => next a rest := by
  intro bytes b rest found
  obtain ⟨⟨a, between⟩, first, second⟩ := Option.bind_eq_some_iff.1 found
  have := takes first
  have := goesOn a second
  omega

theorem takes_takeExactly (n : Nat) : Takes List.length (takeExactly n) := by
  intro bytes front rest found
  obtain ⟨rfl, -⟩ := takeExactly_eq_some_iff.1 found
  exact Nat.le_of_eq List.length_append.symm

theorem takes_takeNumber (width : Nat) : Takes (fun _ => 0) (takeNumber width) := by
  intro bytes n rest found
  obtain ⟨rfl, -⟩ := takeNumber_eq_some found
  simp

end

/-! ## Heads -/

theorem takes_blob? (length : Nat) : Takes Head.behind (blob? length) :=
  Takes.map (f := fun data => Head.whole (.blob data)) (takes_takeExactly length)

theorem takes_sizedBlob? (width : Nat) : Takes Head.behind (sizedBlob? width) :=
  (takes_takeNumber width).bind takes_blob?

theorem takes_unsigned? (width : Nat) : Takes Head.behind (unsigned? width) :=
  Takes.map (f := fun n => Head.whole (.unsigned n width)) (takes_takeNumber width)

theorem takes_signed? (width : Nat) : Takes Head.behind (signed? width) :=
  Takes.map (f := fun n => Head.whole (.signed (ofTwosComplement n width)))
    (takes_takeNumber width)

theorem takes_sizedItems? (width : Nat) : Takes Head.behind (sizedItems? width) :=
  Takes.map (f := Head.items) (takes_takeNumber width)

theorem takes_sizedEntries? (width : Nat) : Takes Head.behind (sizedEntries? width) :=
  Takes.map (f := Head.entries) (takes_takeNumber width)

/-- What is not looked at takes no byte for certain. -/
theorem takes_float? (width : Nat) : Takes Head.behind (float? width) := by
  intro bytes head rest found
  obtain ⟨⟨bits, rest'⟩, taken, same⟩ := Option.map_eq_some_iff.1 found
  cases same
  exact Nat.le_trans (Nat.add_le_add_right (Nat.zero_le _) _) (takes_takeExactly width taken)

theorem takes_extension? (length : Nat) : Takes Head.behind (extension? length) := by
  intro bytes head rest found
  cases bytes with
  | nil => cases found
  | cons kind bytes =>
    obtain ⟨⟨data, rest'⟩, taken, same⟩ := Option.map_eq_some_iff.1 found
    cases same
    have := takes_takeExactly length taken
    show 0 + _ ≤ bytes.length + 1
    omega

theorem takes_sizedExtension? (width : Nat) : Takes Head.behind (sizedExtension? width) :=
  (takes_takeNumber width).bind takes_extension?

/-- A head takes its own byte and those behind it. -/
theorem takes_head? : Takes (fun head => head.behind + 1) head? := by
  intro bytes head rest found
  cases bytes with
  | nil => cases found
  | cons b bytes =>
    suffices behind : head.behind + rest.length ≤ bytes.length by
      show head.behind + 1 + rest.length ≤ bytes.length + 1
      omega
    unfold head? at found
    dsimp only at found
    generalize b.toNat = n at found
    split at found
    · cases found
      exact Nat.le_of_eq (Nat.zero_add _)
    split at found
    · cases found
      exact Nat.le_of_eq (Nat.zero_add _)
    split at found
    · cases found
      exact Nat.le_of_eq (Nat.zero_add _)
    split at found
    · exact takes_blob? _ found
    split at found
    · cases found
      exact Nat.le_of_eq (Nat.zero_add _)
    split at found
    any_goals exact takes_sizedBlob? _ found
    any_goals exact takes_sizedExtension? _ found
    any_goals exact takes_float? _ found
    any_goals exact takes_unsigned? _ found
    any_goals exact takes_signed? _ found
    any_goals exact takes_extension? _ found
    any_goals exact takes_sizedItems? _ found
    any_goals exact takes_sizedEntries? _ found
    all_goals cases found
    all_goals exact Nat.le_of_eq (Nat.zero_add _)

/-! ## Values -/

/-- Things read one after the other take what each of them takes. -/
theorem takes_times? {α : Type} {read : Bytes → Option (α × Bytes)} {cost : α → Nat}
    {total : List α → Nat} (none_left : total [] = 0)
    (one_more : ∀ a as, total (a :: as) = cost a + total as) (each : Takes cost read) (n : Nat) :
    Takes total (times? read n) := by
  induction n with
  | zero =>
    intro bytes as rest found
    cases found
    show total [] + bytes.length ≤ bytes.length
    omega
  | succ n ih =>
    intro bytes as rest found
    rw [times?] at found
    split at found
    · cases found
    · next a between first =>
      obtain ⟨⟨others, rest'⟩, later, same⟩ := Option.map_eq_some_iff.1 found
      cases same
      have := each first
      have := ih later
      rw [one_more]
      omega

theorem takes_items {read : Bytes → Option (Pack × Bytes)} (each : Takes least read) (n : Nat) :
    Takes leastItems (times? read n) :=
  takes_times? rfl (fun _ _ => rfl) each n

theorem takes_pair? {read : Bytes → Option (Pack × Bytes)} (each : Takes least read) :
    Takes (fun entry => entry.1.least + entry.2.least) (pair? read) := by
  intro bytes entry rest found
  rw [pair?] at found
  split at found
  · cases found
  · next key between first =>
    obtain ⟨⟨value, rest'⟩, second, same⟩ := Option.map_eq_some_iff.1 found
    cases same
    have := each first
    have := each second
    dsimp only
    omega

theorem takes_entries {read : Bytes → Option (Pack × Bytes)} (each : Takes least read) (n : Nat) :
    Takes leastEntries (times? (pair? read) n) :=
  takes_times? rfl (fun _ _ => rfl) (takes_pair? each) n

/-- **A value takes as many bytes as it has of its own**, in whichever form it is read. -/
theorem takes_value? (depth : Nat) : Takes least (value? depth) := by
  have whole : ∀ {v : Pack} {bytes rest : Bytes}, head? bytes = some (.whole v, rest) →
      v.least + rest.length ≤ bytes.length := by
    intro v bytes rest atHead
    have taken := takes_head? atHead
    have := one_le_least v
    simp only [Head.behind] at taken
    omega
  induction depth with
  | zero =>
    intro bytes v rest found
    rw [value?] at found
    split at found
    · cases found
    · next atHead =>
      cases found
      exact whole atHead
    · cases found
  | succ depth ih =>
    intro bytes v rest found
    rw [value?] at found
    split at found
    · cases found
    · next atHead =>
      cases found
      exact whole atHead
    -- the parts are behind the head, which takes a byte itself
    · next n between atHead =>
      obtain ⟨⟨items, rest'⟩, taken, same⟩ := Option.map_eq_some_iff.1 found
      cases same
      have head := takes_head? atHead
      have behind := takes_items ih n taken
      simp only [Head.behind, least] at head ⊢
      omega
    · next n between atHead =>
      obtain ⟨⟨entries, rest'⟩, taken, same⟩ := Option.map_eq_some_iff.1 found
      cases same
      have head := takes_head? atHead
      have behind := takes_entries ih n taken
      simp only [Head.behind, least] at head ⊢
      omega

end TopicMesh.Pack
