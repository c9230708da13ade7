import TopicMesh.Proofs.RouteTable.Flat

/-!
# Where the sessions of a route table go

A `SessionLedger` is a table together with the sessions that were made for its routes,
numbered in the order in which they were made, and with those that have closed.  What
happens to it is an `Event`: an edit, the use of a route, which may make a session, the
end of a session's stay by its own name, or the closing of a session, of which the table
is not told.  Each event answers with the `Exit`s of the sessions that leave the table.

**The sessions of a table are conserved** (`sessions_edited`, `balance_step`): what the
table holds after an event and what left it is what it held before and what was made.
Hence every session that was ever made is, at every moment, held by the one route that
it was made for, or has left by exactly one exit (`sessions_accounted_for`).
-/

namespace TopicMesh

namespace RouteTable

variable {σ : Type} (t : RouteTable σ)

/-! ## Conservation -/

theorem sessionsOf_append (routes others : List (Place × RouteEntry σ)) :
    sessionsOf (routes ++ others) = sessionsOf routes ++ sessionsOf others :=
  List.filterMap_append

/-- A table that drops some places of another holds what the other holds, but for the
sessions of those places. -/
theorem sessions_of_drop {t t' : RouteTable σ} (drop : Place → Prop) [DecidablePred drop]
    (dropped : ∀ p, t'.at? p = if drop p then none else t.at? p) :
    (t'.sessions ++ sessionsOf (t.routes.filter fun e => drop e.1)).Perm t.sessions := by
  have left : t'.routes.Perm (t.routes.filter fun e => !decide (drop e.1)) := by
    refine (List.perm_ext_iff_of_nodup t'.routes_nodup (t.routes_nodup.filter _)).2 ?_
    rintro ⟨p, r⟩
    rw [List.mem_filter, mem_routes_iff, mem_routes_iff, dropped]
    by_cases h : drop p <;> simp [h]
  rw [sessions_eq, sessions_eq, ← sessionsOf_append]
  refine List.Perm.filterMap _ ((left.append_right _).trans (List.perm_append_comm.trans ?_))
  exact List.filter_append_perm _ _

/-- The sessions of the other places. -/
def sessionsBut (p : Place) : List σ :=
  sessionsOf (t.routes.filter fun e => e.1 ≠ p)

theorem sessions_split (p : Place) :
    t.sessions.Perm (t.sessionsBut p ++ (t.holder? p).toList) := by
  have here : (t.routes.filter fun e => e.1 = p).Perm ((t.at? p).toList.map fun r => (p, r)) := by
    refine (List.perm_ext_iff_of_nodup (t.routes_nodup.filter _) ?_).2 ?_
    · cases t.at? p <;> simp
    · rintro ⟨q, r⟩
      rw [List.mem_filter, mem_routes_iff, List.mem_map]
      constructor
      · rintro ⟨found, same⟩
        obtain rfl : q = p := of_decide_eq_true same
        exact ⟨r, Option.mem_toList.2 found, rfl⟩
      · rintro ⟨r', found, same⟩
        cases same
        exact ⟨Option.mem_toList.1 found, decide_eq_true rfl⟩
  have session : sessionsOf ((t.at? p).toList.map fun r => (p, r)) = (t.holder? p).toList := by
    unfold holder?
    cases t.at? p with
    | none => rfl
    | some r => cases h : r.session <;> simp [sessionsOf, h]
  have parts : (t.routes.filter (fun e => e.1 ≠ p) ++ t.routes.filter fun e => e.1 = p).Perm
      t.routes := by
    refine List.perm_append_comm.trans ?_
    simpa only [decide_not] using List.filter_append_perm (fun e => decide (e.1 = p)) t.routes
  rw [sessions_eq, ← session, sessionsBut, ← sessionsOf_append]
  exact (parts.symm.trans (here.append_left _)).filterMap _

/-- What a change of one route takes out of the table, and what it puts in. -/
theorem sessions_change (p : Place) (f : Option (RouteEntry σ) → Option (RouteEntry σ)) :
    ((t.change p.topic p.host p.port f).sessions ++ (t.holder? p).toList).Perm
      (t.sessions ++ ((f (t.at? p)).bind RouteEntry.session).toList) := by
  have others : ((t.change p.topic p.host p.port f).sessionsBut p).Perm (t.sessionsBut p) := by
    refine List.Perm.filterMap _ ((List.perm_ext_iff_of_nodup (routes_nodup _ |>.filter _)
      (t.routes_nodup.filter _)).2 ?_)
    rintro ⟨q, r⟩
    rw [List.mem_filter, List.mem_filter, mem_routes_iff, mem_routes_iff, at?_change]
    by_cases same : q = p
    · simp [same]
    · simp [same]
  have here : (t.change p.topic p.host p.port f).holder? p = (f (t.at? p)).bind RouteEntry.session := by
    rw [holder?, at?_change, if_pos rfl]
  have after := sessions_split (t.change p.topic p.host p.port f) p
  rw [here] at after
  have before := t.sessions_split p
  calc (t.change p.topic p.host p.port f).sessions ++ (t.holder? p).toList
    _ |>.Perm ((t.sessionsBut p ++ ((f (t.at? p)).bind RouteEntry.session).toList) ++
          (t.holder? p).toList) := (after.trans (others.append_right _)).append_right _
    _ |>.Perm ((t.sessionsBut p ++ (t.holder? p).toList) ++
          ((f (t.at? p)).bind RouteEntry.session).toList) := by
        rw [List.append_assoc, List.append_assoc]
        exact List.perm_append_comm.append_left _
    _ |>.Perm (t.sessions ++ ((f (t.at? p)).bind RouteEntry.session).toList) :=
        before.symm.append_right _

theorem sessions_upsert (p : Place) (protocol : Protocol) :
    ((t.upsert p.topic p.host p.port protocol).1.sessions ++
      (t.upsert p.topic p.host p.port protocol).2.toList).Perm t.sessions := by
  have changed := t.sessions_change p fun r => some (updated p.host p.port protocol r)
  show ((t.change p.topic p.host p.port fun r => some (updated p.host p.port protocol r)).sessions ++
    (displacedBy protocol (t.at? p)).toList).Perm t.sessions
  unfold holder? at changed
  cases h : t.at? p with
  | none => simpa [h, updated, displacedBy] using changed
  | some r =>
    by_cases same : r.protocol = protocol
    · -- the session stays: it is taken out and put in again
      simpa [h, updated, displacedBy, same, List.perm_append_right_iff] using changed
    · simpa [h, updated, displacedBy, same] using changed

/-- What two changes hand out, one after the other, they hand out together. -/
theorem handed_trans {first second third out others : List σ} (h : (second ++ out).Perm first)
    (h' : (third ++ others).Perm second) : (third ++ (out ++ others)).Perm first := by
  refine List.Perm.trans ?_ ((h'.append_right out).trans h)
  rw [List.append_assoc]
  exact List.perm_append_comm.append_left third

theorem sessions_apply (host : String) (updates : List RouteUpdate) :
    ((t.apply host updates).1.sessions ++ (t.apply host updates).2).Perm t.sessions := by
  induction updates generalizing t with
  | nil => rw [apply, List.append_nil]
  | cons u rest ih =>
    rw [apply]
    exact handed_trans (t.sessions_upsert ⟨u.topic, host, u.port⟩ u.protocol)
      (ih (t.upsert u.topic host u.port u.protocol).1)

theorem sessions_retire (host : String) (names : List (String × UInt16)) :
    ((t.retire host names).1.sessions ++ (t.retire host names).2).Perm t.sessions := by
  induction names generalizing t with
  | nil => rw [retire, List.append_nil]
  | cons name rest ih =>
    have first := t.sessions_change ⟨name.1, host, name.2⟩ fun _ => none
    rw [Option.bind_none, Option.toList_none, List.append_nil] at first
    rw [retire]
    exact handed_trans first (ih (t.change name.1 host name.2 fun _ => none))

/-- **An edit loses no session.**  What the table held is still there or handed out. -/
theorem sessions_edited (e : Edit) :
    ((t.edited e).1.sessions ++ (t.edited e).2).Perm t.sessions := by
  cases e with
  | upsert p protocol => exact t.sessions_upsert p protocol
  | apply host updates => exact t.sessions_apply host updates
  | retire host names => exact t.sessions_retire host names
  | removeHost host =>
    show ((t.removeHost host).1.sessions ++ (t.removeHost host).2).Perm t.sessions
    rw [displaced_of_removeHost]
    exact sessions_of_drop (fun p => p.host = host) fun p =>
      (t.route?_removeHost host p.topic p.host p.port).trans (if_congr eq_comm rfl rfl)
  | forgetTopic topic =>
    show ((t.forgetTopic topic).1.sessions ++ (t.forgetTopic topic).2).Perm t.sessions
    rw [displaced_of_forgetTopic]
    exact sessions_of_drop (fun p => p.topic = topic) fun p =>
      (t.at?_forgetTopic topic p).trans (if_congr eq_comm rfl rfl)
  | clear => exact List.Perm.refl _

/-- A session that is detached was held where it was detached. -/
theorem detach_cases [DecidableEq σ] (p : Place) (s : σ) :
    t.holder? p = some s ∧ t.detach p.topic p.host p.port s =
        (t.change p.topic p.host p.port fun r => r.map fun r => { r with session := none }, true) ∨
      t.holder? p ≠ some s ∧ t.detach p.topic p.host p.port s = (t, false) := by
  unfold detach holder? at?
  split
  · next held => exact .inl ⟨held, rfl⟩
  · next other => exact .inr ⟨other, rfl⟩

/-- No edit puts a session on a route. -/
theorem holder?_edited {e : Edit} {p : Place} {s : σ}
    (held : (t.edited e).1.holder? p = some s) : t.holder? p = some s := by
  have upserted : ∀ (f : Flat σ) (q : Place) (protocol : Protocol),
      (f.upsert q protocol p).bind Route.session = some s → (f p).bind Route.session = some s := by
    intro f q protocol held
    rw [Flat.upsert, Function.update_apply] at held
    split at held
    · next same =>
      subst same
      cases h : f p with
      | none => simp [h] at held
      | some r =>
        rw [h] at held
        by_cases kept : r.protocol = protocol
        · simpa [Option.filter, kept] using held
        · simp [Option.filter, kept] at held
    · exact held
  have dropped : ∀ (c : Prop) [Decidable c] (r : Option (Route σ)),
      (if c then none else r).bind Route.session = some s → r.bind Route.session = some s := by
    intro c _ r held
    split at held
    · cases held
    · exact held
  rw [← bind_flat] at held ⊢
  rw [flat_edited] at held
  generalize t.flat = f at held ⊢
  cases e with
  | upsert q protocol => exact upserted f q protocol held
  | apply host updates =>
    induction updates generalizing f with
    | nil => exact held
    | cons u rest ih => exact upserted f _ _ (ih _ held)
  | removeHost host => exact dropped _ _ held
  | retire host names => exact dropped _ _ held
  | forgetTopic topic => exact dropped _ _ held
  | clear => cases held

end RouteTable

/-- **A table with its sessions**, which are numbered as they are made. -/
structure SessionLedger where
  table : RouteTable Nat
  /-- The places that sessions were made for, in the order of the sessions' numbers. -/
  made : List Place
  /-- The sessions that have closed. -/
  closed : List Nat

namespace SessionLedger

open RouteTable

/-- No routes, and no session was made. -/
def empty : SessionLedger := ⟨.empty, [], []⟩

/-- What happens to a table and its sessions. -/
inductive Event
  | edit (e : Edit)
  /-- The session of a route is wanted, and made if there is none that is still open. -/
  | use (p : Place)
  | detach (p : Place) (session : Nat)
  /-- A session closes; the table is not told. -/
  | close (session : Nat)
deriving DecidableEq, Repr

/-- How a session leaves the table. -/
inductive Exit
  /-- An edit hands it out. -/
  | displaced (session : Nat)
  /-- It is detached by its own name. -/
  | detached (session : Nat)
  /-- Another session takes its route. -/
  | replaced (session successor : Nat)
deriving DecidableEq, Repr

namespace Exit

/-- The session that leaves. -/
def session : Exit → Nat
  | displaced s => s
  | detached s => s
  | replaced s _ => s

/-- Whether a session leaves because another one takes its route. -/
def isReplacementOf (s : Nat) : Exit → Bool
  | replaced s' _ => s' = s
  | _ => false

end Exit

/-- Whether a session has closed. -/
def isClosed (l : SessionLedger) (s : Nat) : Bool :=
  s ∈ l.closed

/-- The number of the next session. -/
def next (l : SessionLedger) : Nat :=
  l.made.length

/-- The ledger after an event, and the exits that the event brings. -/
def step (l : SessionLedger) : Event → SessionLedger × List Exit
  | .edit e =>
    let (t, displaced) := l.table.edited e
    ({ l with table := t }, displaced.map .displaced)
  | .use p =>
    match l.table.sessionOrInsert l.isClosed p.topic p.host p.port l.next with
    | (t, some (s, true)) =>
      (⟨t, l.made ++ [p], l.closed⟩, (l.table.holder? p).toList.map fun old => .replaced old s)
    | (t, _) => ({ l with table := t }, [])
  | .detach p s =>
    let (t, done) := l.table.detach p.topic p.host p.port s
    ({ l with table := t }, if done then [.detached s] else [])
  | .close s => (if s < l.next then { l with closed := s :: l.closed } else l, [])

/-- The ledger after some events, and all exits, oldest first. -/
def run (l : SessionLedger) : List Event → SessionLedger × List Exit
  | [] => (l, [])
  | e :: rest =>
    let (l, exits) := l.step e
    let (l, others) := l.run rest
    (l, exits ++ others)

/-- **Whether every session that was made is accounted for.** -/
structure Accounted (l : SessionLedger) (exits : List Exit) : Prop where
  /-- It is held by one route, or has left by one exit. -/
  once : ∀ s, l.table.sessions.count s + exits.count (.displaced s) + exits.count (.detached s) +
    exits.countP (Exit.isReplacementOf s) = if s < l.next then 1 else 0
  /-- The route that holds it is the one that it was made for. -/
  home : ∀ p s, l.table.holder? p = some s → l.made[s]? = some p

/-- **What the next event may do to the sessions.** -/
structure Careful (l : SessionLedger) : Prop where
  /-- A session is replaced after it has closed, by a newer one for the same route. -/
  replaced : ∀ e s s', .replaced s s' ∈ (l.step e).2 →
    l.isClosed s = true ∧ s < s' ∧ ∃ p, l.made[s]? = some p ∧ (l.step e).1.made[s']? = some p
  /-- The name of another session than the one that a route holds detaches nothing. -/
  detached : ∀ p s, l.table.holder? p ≠ some s → l.step (.detach p s) = (l, [])
  /-- A session is made just if there is a route, and it holds no session that is open. -/
  made : ∀ p, (l.step (.use p)).1.next = l.next + 1 ↔
    l.table.at? p ≠ none ∧ ∀ s, l.table.holder? p = some s → l.isClosed s = true

/-! ## One event -/

/-- What the use of a route does: nothing, or it makes a session where a route holds
none that is open. -/
theorem step_use_cases (l : SessionLedger) (p : Place) :
    l.step (.use p) = (l, []) ∧ (l.table.at? p = none ∨
      ∃ s, l.table.holder? p = some s ∧ l.isClosed s = false) ∨
    l.table.at? p ≠ none ∧ (l.table.holder? p).all l.isClosed = true ∧
      l.step (.use p) =
        (⟨l.table.attach p.topic p.host p.port l.next, l.made ++ [p], l.closed⟩,
          (l.table.holder? p).toList.map fun old => .replaced old l.next) := by
  rcases l.table.sessionOrInsert_cases l.isClosed p l.next with
    ⟨absent, is⟩ | ⟨s, held, open_, is⟩ | ⟨present, vacant, is⟩
  · exact .inl ⟨by simp only [step, is], .inl absent⟩
  · exact .inl ⟨by simp only [step, is], .inr ⟨s, held, open_⟩⟩
  · exact .inr ⟨present, vacant, by simp only [step, is]⟩

/-- What a detaching does: it takes the session that the route holds, or nothing. -/
theorem step_detach_cases (l : SessionLedger) (p : Place) (s : Nat) :
    l.table.holder? p = some s ∧ l.step (.detach p s) =
      (⟨l.table.change p.topic p.host p.port fun r => r.map fun r => { r with session := none },
        l.made, l.closed⟩, [.detached s]) ∨
    l.table.holder? p ≠ some s ∧ l.step (.detach p s) = (l, []) := by
  rcases l.table.detach_cases p s with ⟨held, is⟩ | ⟨other, is⟩
  · exact .inl ⟨held, by simp only [step, is, if_true]⟩
  · exact .inr ⟨other, by simp [step, is]⟩

theorem step_close_cases (l : SessionLedger) (s : Nat) :
    l.step (.close s) = ({ l with closed := s :: l.closed }, []) ∨ l.step (.close s) = (l, []) := by
  simp only [step]
  split
  · exact .inl rfl
  · exact .inr rfl

/-- Whether what a table holds and what has left it are the sessions that were made. -/
def Balanced (l : SessionLedger) (exits : List Exit) : Prop :=
  (l.table.sessions ++ exits.map Exit.session).Perm (List.range l.next)

/-- **What an event takes out of the table and what it makes.** -/
theorem balance_step (l : SessionLedger) (e : Event) : ∃ new : List Nat,
    List.range (l.step e).1.next = List.range l.next ++ new ∧
    ((l.step e).1.table.sessions ++ (l.step e).2.map Exit.session).Perm
      (l.table.sessions ++ new) := by
  cases e with
  | edit e =>
    refine ⟨[], (List.append_nil _).symm, ?_⟩
    have same : ((l.table.edited e).2.map Exit.displaced).map Exit.session =
        (l.table.edited e).2 := by
      rw [List.map_map]
      exact List.map_id _
    show ((l.table.edited e).1.sessions ++ _).Perm _
    rw [List.append_nil]
    exact same ▸ l.table.sessions_edited e
  | use p =>
    rcases l.step_use_cases p with ⟨is, -⟩ | ⟨present, -, is⟩
    · refine ⟨[], ?_, ?_⟩ <;> rw [is]
      · exact (List.append_nil _).symm
      · exact List.Perm.refl _
    · refine ⟨[l.next], ?_, ?_⟩ <;> rw [is]
      · show List.range (l.made ++ [p]).length = _
        rw [List.length_append]
        exact List.range_succ
      · -- the new session goes in, and the closed one that was there comes out
        have changed := l.table.sessions_change p fun r =>
          r.map fun r => { r with session := some l.next }
        have taken : ((l.table.at? p).map fun r => { r with session := some l.next }).bind
            RouteEntry.session = some l.next := by
          obtain ⟨r, found⟩ := Option.ne_none_iff_exists'.1 present
          rw [found]
          rfl
        rw [taken, Option.toList_some] at changed
        rw [List.map_map]
        exact (List.map_id (l.table.holder? p).toList).symm ▸ changed
  | detach p s =>
    refine ⟨[], ?_⟩
    rw [List.append_nil]
    rcases l.step_detach_cases p s with ⟨held, is⟩ | ⟨-, is⟩
    · have changed := l.table.sessions_change p fun r => r.map fun r => { r with session := none }
      have taken : ((l.table.at? p).map fun r => ({ r with session := none } : RouteEntry Nat)).bind
          RouteEntry.session = none := by
        cases l.table.at? p <;> rfl
      rw [taken, held] at changed
      rw [is]
      exact ⟨rfl, changed⟩
    · rw [is]
      exact ⟨rfl, (List.append_nil _).symm ▸ List.Perm.refl _⟩
  | close s =>
    refine ⟨[], ?_⟩
    rw [List.append_nil]
    rcases l.step_close_cases s with is | is <;> rw [is] <;> exact ⟨rfl, List.Perm.refl _⟩

/-- An exit has one kind. -/
theorem count_exits (exits : List Exit) (s : Nat) :
    exits.count (.displaced s) + exits.count (.detached s) +
      exits.countP (Exit.isReplacementOf s) = (exits.map Exit.session).count s := by
  induction exits with
  | nil => rfl
  | cons e rest ih =>
    rw [List.map_cons, List.count_cons, List.count_cons, List.count_cons, List.countP_cons, ← ih]
    cases e with
    | displaced s' => simp [Exit.isReplacementOf, Exit.session]; omega
    | detached s' => simp [Exit.isReplacementOf, Exit.session]; omega
    | replaced s' _ => simp [Exit.isReplacementOf, Exit.session]; omega

/-- Each session is in one situation just if the sessions balance: numbers are not
given twice. -/
theorem balanced_iff (l : SessionLedger) (exits : List Exit) :
    l.Balanced exits ↔ ∀ s, l.table.sessions.count s + exits.count (.displaced s) +
      exits.count (.detached s) + exits.countP (Exit.isReplacementOf s) =
        if s < l.next then 1 else 0 := by
  unfold Balanced
  rw [List.perm_iff_count]
  refine forall_congr' fun s => ?_
  rw [List.count_append, ← count_exits, List.nodup_range.count]
  simp only [List.mem_range, Nat.add_assoc]

theorem home_step {l : SessionLedger}
    (home : ∀ p s, l.table.holder? p = some s → l.made[s]? = some p) (e : Event) (p : Place)
    (s : Nat) (held : (l.step e).1.table.holder? p = some s) :
    (l.step e).1.made[s]? = some p := by
  cases e with
  | edit e => exact home p s (holder?_edited l.table held)
  | use q =>
    rcases l.step_use_cases q with ⟨is, -⟩ | ⟨-, -, is⟩
    · rw [is] at held ⊢
      exact home p s held
    · rw [is] at held ⊢
      dsimp only at held ⊢
      rw [← bind_flat, flat_attach, Flat.assign, Function.update_apply] at held
      split at held
      · next here =>
        -- the route that was used holds the session that was made just now
        subst here
        obtain ⟨r, found⟩ : ∃ r, l.table.flat p = some r := by
          cases h : l.table.flat p with
          | none => simp [h] at held
          | some r => exact ⟨r, rfl⟩
        rw [found] at held
        cases held
        exact List.getElem?_concat_length
      · rw [bind_flat] at held
        have before := home p s held
        obtain ⟨bound, -⟩ := List.getElem?_eq_some_iff.1 before
        rwa [List.getElem?_append_left bound]
  | detach q s' =>
    rcases l.step_detach_cases q s' with ⟨-, is⟩ | ⟨-, is⟩
    · rw [is] at held ⊢
      dsimp only at held ⊢
      rw [← bind_flat, flat_assign, Flat.assign, Function.update_apply] at held
      split at held
      · cases h : l.table.flat q with
        | none => simp [h] at held
        | some r => simp [h] at held
      · rw [bind_flat] at held
        exact home p s held
    · rw [is] at held ⊢
      exact home p s held
  | close s' =>
    rcases l.step_close_cases s' with is | is <;> rw [is] at held ⊢ <;> exact home p s held

theorem accounted_empty : empty.Accounted [] :=
  ⟨(balanced_iff empty []).1 (List.Perm.refl _), nofun⟩

/-- **An event keeps the sessions accounted for.** -/
theorem accounted_step {l : SessionLedger} {exits : List Exit} (sound : l.Accounted exits)
    (e : Event) : (l.step e).1.Accounted (exits ++ (l.step e).2) := by
  refine ⟨(balanced_iff _ _).1 ?_, home_step sound.home e⟩
  have before := (balanced_iff l exits).2 sound.once
  -- what left earlier is set aside while the event balances the rest
  obtain ⟨new, range, moved⟩ := l.balance_step e
  unfold Balanced
  rw [range, List.map_append]
  calc (l.step e).1.table.sessions ++ (exits.map Exit.session ++ (l.step e).2.map Exit.session)
    _ |>.Perm ((l.step e).1.table.sessions ++
          ((l.step e).2.map Exit.session ++ exits.map Exit.session)) :=
        List.perm_append_comm.append_left _
    _ |>.Perm ((l.table.sessions ++ new) ++ exits.map Exit.session) := by
        rw [← List.append_assoc]
        exact moved.append_right _
    _ |>.Perm ((l.table.sessions ++ exits.map Exit.session) ++ new) := by
        rw [List.append_assoc, List.append_assoc]
        exact List.perm_append_comm.append_left _
    _ |>.Perm (List.range l.next ++ new) := before.append_right _

/-- The sessions of an accounted ledger are treated with care. -/
theorem Accounted.careful {l : SessionLedger} {exits : List Exit} (sound : l.Accounted exits) :
    l.Careful where
  replaced := by
    intro e s s' left
    cases e with
    | edit e =>
      have left : _ ∈ (l.table.edited e).2.map Exit.displaced := left
      simp at left
    | use p =>
      rcases l.step_use_cases p with ⟨is, -⟩ | ⟨-, vacant, is⟩
      · rw [is] at left
        cases left
      · rw [is] at left ⊢
        obtain ⟨old, held, same⟩ := List.mem_map.1 left
        cases same
        have held : l.table.holder? p = some s := Option.mem_toList.1 held
        have home := sound.home p s held
        rw [held] at vacant
        refine ⟨vacant, (List.getElem?_eq_some_iff.1 home).1, p, home, ?_⟩
        exact List.getElem?_concat_length
    | detach p s'' =>
      rcases l.step_detach_cases p s'' with ⟨-, is⟩ | ⟨-, is⟩ <;> rw [is] at left <;>
        simp at left
    | close s'' =>
      rcases l.step_close_cases s'' with is | is <;> rw [is] at left <;> cases left
  detached := by
    intro p s other
    rcases l.step_detach_cases p s with ⟨held, -⟩ | ⟨-, is⟩
    · exact absurd held other
    · exact is
  made := by
    intro p
    rcases l.step_use_cases p with ⟨is, none⟩ | ⟨present, vacant, is⟩
    · rw [is]
      refine ⟨fun more => absurd more (Nat.succ_ne_self _).symm, ?_⟩
      rintro ⟨present, vacant⟩
      rcases none with absent | ⟨s, held, open_⟩
      · exact absurd absent present
      · rw [vacant s held] at open_
        cases open_
    · rw [is]
      refine ⟨fun _ => ⟨present, fun s held => ?_⟩, fun _ => List.length_append⟩
      rw [held] at vacant
      exact vacant

/-! ## A run -/

theorem accounted_run {l : SessionLedger} {exits : List Exit} (sound : l.Accounted exits)
    (events : List Event) : (l.run events).1.Accounted (exits ++ (l.run events).2) := by
  induction events generalizing l exits with
  | nil =>
    show l.Accounted (exits ++ [])
    rwa [List.append_nil]
  | cons e rest ih =>
    show ((l.step e).1.run rest).1.Accounted (exits ++ ((l.step e).2 ++ ((l.step e).1.run rest).2))
    rw [← List.append_assoc]
    exact ih (accounted_step sound e)

/-- **No session is lost or handed out twice.**  After any events each session that was
made is held by the route that it was made for, or has left by one exit; and whatever
happens next, only a session that has closed is replaced, a session is detached only by
its own name, and one is made only for a route that holds none that is open. -/
theorem sessions_accounted_for (events : List Event) :
    (empty.run events).1.Accounted (empty.run events).2 ∧ (empty.run events).1.Careful :=
  have sound := accounted_run accounted_empty events
  ⟨sound, sound.careful⟩

/-- A session closes, is replaced, and is then detached by its old name: the one that
replaced it stays. -/
example :
    let p : Place := ⟨"t", "h", 1⟩
    let r := empty.run [.edit (.upsert p .stream), .use p, .close 0, .use p, .detach p 0]
    (r.1.table.holder? p, r.2) = (some 1, [.replaced 0 1]) := by
  decide

end SessionLedger

end TopicMesh
