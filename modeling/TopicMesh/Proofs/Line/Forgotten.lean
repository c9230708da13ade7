import TopicMesh.Proofs.Broker.Wills

/-!
# Lines that the broker has forgotten

A party that leaves takes the registration of its client with it, whoever made that
registration.  So a line can stay attached although the broker does not know its client any
more: the line is **lost** (`Lost`).

To connect an attached line does nothing.  A line that is asked to connect can therefore be
used afterwards unless it was lost (`usable_connect_iff`), and a line is lost just when it is
**forgotten** (`lost_run`): another party left in the name of its client, and since then the
line has not ended and nobody has arrived in that name.  If no two parties ever use one name
at a time, this happens to no line (`usable_connect_of_orderly`).
-/

namespace TopicMesh

theorem Line.ifConnected_ne_notConnected_iff {line : Line} {hub : Hub} {act : Hub → Hub} :
    line.ifConnected hub act ≠ .error .notConnected ↔ line.isConnected hub = true := by
  unfold ifConnected
  cases line.isConnected hub with
  | false => exact ⟨fun works => absurd rfl works, fun h => by cases h⟩
  | true => exact ⟨fun _ => rfl, fun _ h => by cases h⟩

namespace Switchboard

/-- Whether a line is connected, so that no call to publish or to subscribe fails because
it is not. -/
structure Usable (s : Switchboard) (i : Nat) : Prop where
  connected : (s.lines i).isConnected s.hub = true
  publishes : ∀ m, (s.lines i).publish s.hub m ≠ .error .notConnected
  subscribes : ∀ filter qos, (s.lines i).subscribe s.hub filter qos ≠ .error .notConnected

/-- Whether a line is attached but its client is not registered. -/
def Lost (s : Switchboard) (i : Nat) : Prop :=
  s.serves (.line i) = some (s.lines i).client ∧
    s.hub.broker.clients.get? (s.lines i).client = none

/-- Whether a line is attached and another party leaves in the name of its client. -/
def Forgets (s : Switchboard) (e : Event) (i : Nat) : Prop :=
  s.serves (.line i) = some (s.lines i).client ∧
    ∃ q graceful shuts, q ≠ .line i ∧
      s.dealing? e = some (.leaves q (s.lines i).client graceful shuts)

/-- Whether during some events a line does not end and nobody arrives in the name of its
client. -/
def Unmended (s : Switchboard) (events : List Event) (i : Nat) : Prop :=
  s.end? (.line i) events = none ∧ (s.lines i).client ∉ s.arrivals events

/-- **Whether a line is forgotten**: another party left in the name of its client, and since
then the line has not ended and nobody has arrived in that name. -/
def Forgotten (s : Switchboard) (events : List Event) (i : Nat) : Prop :=
  ∃ earlier e later, events = earlier ++ e :: later ∧ (s.run earlier).Forgets e i ∧
    ((s.run earlier).step e).Unmended later i

variable {s : Switchboard} {e : Event} {i : Nat}

/-! ## Lines that can be used -/

theorem usable_iff : s.Usable i ↔ (s.lines i).isConnected s.hub = true :=
  ⟨Usable.connected, fun connected => ⟨connected,
    fun _ => Line.ifConnected_ne_notConnected_iff.2 connected,
    fun _ _ => Line.ifConnected_ne_notConnected_iff.2 connected⟩⟩

theorem usable_iff_serves : s.Usable i ↔
    s.serves (.line i) = some (s.lines i).client ∧
      s.hub.broker.clients.get? (s.lines i).client ≠ none := by
  rw [usable_iff, Line.isConnected, Bool.and_eq_true_iff]
  refine and_congr ?_ ?_
  · show _ ↔ (s.lines i).client? = _
    cases attached : (s.lines i).inbox with
    | none => simp [Line.client?_of_free attached]
    | some inbox => simp [Line.client?_of_attached attached]
  · exact KeyMap.contains_eq_true.trans Option.ne_none_iff_exists'.symm

/-- **A line that is asked to connect can be used afterwards unless it was lost.** -/
theorem usable_connect_iff (s : Switchboard) (i : Nat) :
    (s.step (.line i .connect)).Usable i ↔ ¬s.Lost i := by
  rw [usable_iff_serves, client_lines_step, serves_line_step, hub_step]
  cases attached : (s.lines i).inbox with
  | some inbox =>
    have serves : s.serves (.line i) = some (s.lines i).client := Line.client?_of_attached attached
    have nothing : s.dealing? (.line i .connect) = none := if_pos (attached ▸ rfl)
    rw [nothing]
    exact ⟨fun usable lost => usable.2 lost.2,
      fun kept => ⟨serves, fun gone => kept ⟨serves, gone⟩⟩⟩
  | none =>
    have free : s.serves (.line i) = none := Line.client?_of_free attached
    have arrives : s.dealing? (.line i .connect) =
        some (.arrives (.line i) (s.lines i).client (s.lines i).will) :=
      if_neg (by rw [attached]; exact Bool.false_ne_true)
    rw [arrives]
    refine iff_of_true ⟨if_pos rfl, fun gone => ?_⟩ fun lost => ?_
    · cases Dealing.registration_arrives.symm.trans gone
    · cases free.symm.trans lost.1

/-! ## Lines that are lost -/

/-- **A line is lost as long as nothing mends it, and is lost when it is forgotten.** -/
theorem lost_step (s : Switchboard) (e : Event) (i : Nat) :
    (s.step e).Lost i ↔
      (s.Lost i ∧ s.ending? (.line i) e = none ∧ s.arrival? e ≠ some (s.lines i).client) ∨
        s.Forgets e i := by
  unfold Lost Forgets ending? arrival?
  rw [client_lines_step, serves_line_step, hub_step]
  cases amounts : s.dealing? e with
  | none => simp
  | some d =>
    have fits := fits_of_dealing? amounts
    generalize (s.lines i).client = client
    have stays (others : d.moved? ≠ some client) :
        (d.on s.hub).broker.clients.get? client = s.hub.broker.clients.get? client :=
      Dealing.registration_on others
    simp only [Option.elim_some]
    cases d with
    | arrives q other will =>
      show (if q = .line i then some other else s.serves (.line i)) = some client ∧ _ ↔ _
      by_cases named : other = client
      · -- whoever arrives, the name is registered again
        subst named
        refine iff_of_false (fun lost => ?_) (by simp)
        cases Dealing.registration_arrives.symm.trans lost.2
      · rw [stays fun same => named (Option.some.inj same)]
        by_cases own : q = .line i
        · -- a line that arrives was not attached, so it was not lost
          subst own
          have free : s.serves (.line i) = none := fits
          simp [named, free]
        · simp [named, own]
    | leaves q other graceful shuts =>
      show (if q = .line i then none else s.serves (.line i)) = some client ∧ _ ↔ _
      by_cases own : q = .line i
      · simp [own]
      · by_cases named : other = client
        · subst named
          have gone : ((Dealing.leaves q other graceful shuts).on s.hub).broker.clients.get? other =
              none := Dealing.registration_leaves
          simpa [own, gone] using fun serves _ => serves
        · rw [stays fun same => named (Option.some.inj same)]
          simp [named, own]
    | _ =>
      rw [stays (Option.some_ne_none client).symm]
      simp [Dealing.onServes]

theorem unmended_cons {rest : List Event} :
    s.Unmended (e :: rest) i ↔
      (s.ending? (.line i) e = none ∧ s.arrival? e ≠ some (s.lines i).client) ∧
        (s.step e).Unmended rest i := by
  unfold Unmended
  rw [end?, arrivals, client_lines_step, Option.or_eq_none_iff, List.mem_append,
    Option.mem_toList, not_or]
  tauto

theorem not_forgotten_nil : ¬s.Forgotten [] i := by
  rintro ⟨earlier, e, later, split, -⟩
  cases earlier <;> cases split

theorem forgotten_cons {rest : List Event} :
    s.Forgotten (e :: rest) i ↔
      s.Forgets e i ∧ (s.step e).Unmended rest i ∨ (s.step e).Forgotten rest i := by
  constructor
  · rintro ⟨earlier, e', later, split, forgets, since⟩
    cases earlier with
    | nil =>
      cases split
      exact .inl ⟨forgets, since⟩
    | cons first earlier =>
      cases split
      exact .inr ⟨earlier, e', later, rfl, forgets, since⟩
  · rintro (⟨forgets, since⟩ | ⟨earlier, e', later, rfl, forgets, since⟩)
    · exact ⟨[], e, rest, rfl, forgets, since⟩
    · exact ⟨e :: earlier, e', later, rfl, forgets, since⟩

/-- **A line is lost if it was so and nothing has mended it, or if it is forgotten.** -/
theorem lost_run (s : Switchboard) (events : List Event) (i : Nat) :
    (s.run events).Lost i ↔ s.Lost i ∧ s.Unmended events i ∨ s.Forgotten events i := by
  induction events generalizing s with
  | nil =>
    have unmended : s.Unmended [] i := ⟨rfl, List.not_mem_nil⟩
    exact ⟨fun lost => .inl ⟨lost, unmended⟩, fun h => (h.resolve_right not_forgotten_nil).1⟩
  | cons e rest ih =>
    show ((s.step e).run rest).Lost i ↔ _
    rw [ih, lost_step, unmended_cons, forgotten_cons]
    tauto

theorem lost_run_start (now : Int64) (names : Nat → String) (events : List Event) (i : Nat) :
    ((start now names).run events).Lost i ↔ (start now names).Forgotten events i := by
  have free : ¬(start now names).Lost i := fun lost => by cases lost.1
  rw [lost_run]
  exact or_iff_right fun both => free both.1

/-- If no two parties ever use one name at a time, a line that is asked to connect can be
used afterwards. -/
theorem usable_connect_of_orderly {now : Int64} {names : Nat → String} {events : List Event}
    (orderly : (start now names).Orderly events) (i : Nat) :
    (((start now names).run events).step (.line i .connect)).Usable i := by
  rw [usable_connect_iff, lost_run_start]
  rintro ⟨earlier, e, later, rfl, ⟨serves, q, graceful, shuts, other, leaves⟩, -⟩
  exact other (orderly.drop.apart q _ _ (fits_of_dealing? leaves).1 serves)

/-- A line that takes leave first can be used once it has been connected. -/
theorem usable_connect_of_disconnect (s : Switchboard) (i : Nat) :
    ((s.step (.line i .disconnect)).step (.line i .connect)).Usable i := by
  have free : (s.step (.line i .disconnect)).serves (.line i) = none := by
    show (Function.update s.lines i _ i).client? = none
    rw [Function.update_self]
    exact Line.client?_of_free (Line.inbox_disconnect ..)
  rw [usable_connect_iff]
  rintro ⟨serves, -⟩
  cases free.symm.trans serves

/-- **A line that is asked to connect can be used afterwards unless it is forgotten**,
whatever happened before. -/
theorem usable_connect_iff_not_forgotten (now : Int64) (names : Nat → String)
    (events : List Event) (i : Nat) :
    (((start now names).run events).step (.line i .connect)).Usable i ↔
      ¬(start now names).Forgotten events i :=
  (usable_connect_iff _ i).trans (not_congr (lost_run_start now names events i))

/-- Two lines of one name connect and the second takes leave: the first is attached, so
that to connect it does nothing, and it is not connected. -/
theorem not_always_usable :
    ¬∀ (now : Int64) (names : Nat → String) (calls : List (Nat × Line.Event)) (i : Nat),
      (((start now names).run (calls.map fun c => .line c.1 c.2)).step (.line i .connect)).Usable
        i := by
  intro always
  have connected :=
    (always 7 (fun _ => "x") [(0, .connect), (1, .connect), (1, .disconnect)] 0).connected
  revert connected
  decide

end Switchboard

end TopicMesh
