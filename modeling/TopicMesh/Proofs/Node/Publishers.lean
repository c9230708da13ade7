import Mathlib.Data.List.Induction
import TopicMesh.Proofs.Node.FanOut

/-!
# Publishers that act on what they were shown

A publication looks the routes of its topic up, sends the payload along the direct ones,
which takes time, and then wants the sessions of those that were peer routes in the
look-up.  In the meantime announcements change the table, other publishers use it, and
sessions close.

Sessions belong on peer routes.  Whatever gives a route another protocol takes its session
out, and a route that is gone is not used; but a route that has **another protocol** by
then gets a session all the same.  Such a use is late (`Late`), and it is the only thing
that puts a session on a route that is no peer route (`peerOnly_step_iff`): sessions stand
on peer routes at every moment just if no publisher is ever late
(`always_peerOnly_iff`).
-/

namespace TopicMesh

namespace RouteTable.Flat

variable {σ : Type}

/-- Whether only peer routes hold sessions. -/
def PeerOnly (f : Flat σ) : Prop :=
  ∀ p r, f p = some r → r.session ≠ none → r.protocol = .peerRtc

/-- An update that leaves a place with a session leaves that place alone. -/
theorem upsert_of_manned {f : Flat σ} {q p : Place} {protocol : Protocol} {r : Route σ}
    (found : f.upsert q protocol p = some r) (manned : r.session ≠ none) : f p = some r := by
  rw [upsert, Function.update_apply] at found
  split at found
  · next here =>
    subst here
    -- a session is left only where the protocol is the old one
    cases found
    obtain ⟨s, left⟩ := Option.ne_none_iff_exists'.1 manned
    dsimp only at left
    obtain ⟨old, kept, session⟩ := Option.bind_eq_some_iff.1 left
    obtain ⟨before, same⟩ := Option.filter_eq_some_iff.1 kept
    rw [left, before, ← session, ← of_decide_eq_true same]
  · exact found

/-- So does any edit. -/
theorem edited_of_manned {f : Flat σ} {e : Edit} {p : Place} {r : Route σ}
    (found : f.edited e p = some r) (manned : r.session ≠ none) : f p = some r := by
  have dropped : ∀ {c : Prop} [Decidable c], (if c then none else f p) = some r → f p = some r := by
    intro c _ found
    split at found
    · cases found
    · exact found
  cases e with
  | upsert q protocol => exact upsert_of_manned found manned
  | apply host updates =>
    clear dropped
    induction updates generalizing f with
    | nil => exact found
    | cons u rest ih => exact upsert_of_manned (ih found) manned
  | removeHost host => exact dropped found
  | retire host names => exact dropped found
  | forgetTopic topic => exact dropped found
  | clear => cases found

theorem PeerOnly.edited {f : Flat σ} (sound : f.PeerOnly) (e : Edit) : (f.edited e).PeerOnly :=
  fun p r found manned => sound p r (edited_of_manned found manned) manned

/-- A place may be given a session just if there is no other route than a peer route. -/
theorem PeerOnly.assign_iff {f : Flat σ} (sound : f.PeerOnly) (q : Place) (session : Option σ) :
    (f.assign q session).PeerOnly ↔
      (session ≠ none → ∀ r, f q = some r → r.protocol = .peerRtc) := by
  constructor
  · intro after manned r there
    refine after q ⟨r.protocol, session⟩ ?_ manned
    rw [assign, Function.update_self, there, Option.map_some]
  · intro fits p r found manned
    rw [assign, Function.update_apply] at found
    split at found
    · obtain ⟨old, there, rfl⟩ := Option.map_eq_some_iff.1 found
      exact fits manned old there
    · exact sound p r found manned

end RouteTable.Flat

open RouteTable (Edit)

/-- **Publishers at work**: a table with its sessions, and what they were shown of it. -/
structure Traffic where
  ledger : SessionLedger
  /-- The places that each publisher has found peer routes at. -/
  shown : Nat → List Place

namespace Traffic

/-- No routes, no sessions, and nothing was shown. -/
def empty : Traffic := ⟨.empty, fun _ => []⟩

/-- What happens while publishers are at work, one thing at a time. -/
inductive Event
  /-- Announcements are taken in, routes are given up. -/
  | edit (e : Edit)
  /-- A session leaves its route by itself. -/
  | detach (p : Place) (session : Nat)
  /-- A session closes; the table is not told. -/
  | close (session : Nat)
  /-- A publisher looks the routes of a topic up. -/
  | lookup (publisher : Nat) (topic : String)
  /-- A publisher wants the session of a route. -/
  | use (publisher : Nat) (p : Place)
deriving DecidableEq, Repr

/-- The places of a topic's peer routes. -/
def peers (t : Traffic) (topic : String) : List Place :=
  ((t.ledger.table.lookup topic).filter fun r => r.protocol = .peerRtc).map (RouteEntry.place topic)

/-- What an event leads to.  A publisher uses a route only if it has been shown it as a
peer route. -/
def step (t : Traffic) : Event → Traffic
  | .edit e => { t with ledger := (t.ledger.step (.edit e)).1 }
  | .detach p session => { t with ledger := (t.ledger.step (.detach p session)).1 }
  | .close session => { t with ledger := (t.ledger.step (.close session)).1 }
  | .lookup i topic => { t with shown := Function.update t.shown i (t.shown i ++ t.peers topic) }
  | .use i p => if p ∈ t.shown i then { t with ledger := (t.ledger.step (.use p)).1 } else t

/-- What some events lead to. -/
def run (events : List Event) : Traffic :=
  events.foldl step empty

/-- **Whether only peer routes hold sessions.** -/
def PeerOnly (t : Traffic) : Prop :=
  t.ledger.table.flat.PeerOnly

/-- Whether an event is the use of a route that its publisher was shown as a peer route,
and that has another protocol now. -/
def Late (t : Traffic) : Event → Prop
  | .use i p => p ∈ t.shown i ∧ ∃ r, t.ledger.table.flat p = some r ∧ r.protocol ≠ .peerRtc
  | _ => False

/-- The use of a route keeps sessions on peer routes just if it is a peer route, or none. -/
theorem peerOnly_use_iff {l : SessionLedger} (sound : l.table.flat.PeerOnly) (p : Place) :
    (l.step (.use p)).1.table.flat.PeerOnly ↔
      ∀ r, l.table.flat p = some r → r.protocol = .peerRtc := by
  rcases l.step_use_cases p with ⟨is, absent | ⟨s, held, -⟩⟩ | ⟨-, -, is⟩
  · rw [is]
    refine iff_of_true sound fun r there => ?_
    rw [RouteTable.flat, absent] at there
    cases there
  · -- a route that holds a session is a peer route already
    rw [is]
    refine iff_of_true sound fun r there => sound p r there fun vacant => ?_
    rw [← RouteTable.bind_flat, there, Option.bind_some, vacant] at held
    cases held
  · rw [is]
    dsimp only
    rw [RouteTable.flat_attach, sound.assign_iff]
    exact ⟨fun fits => fits (Option.some_ne_none _), fun fits _ => fits⟩

/-- **What is late, and nothing else, puts a session where none belongs.** -/
theorem peerOnly_step_iff {t : Traffic} (sound : t.PeerOnly) (e : Event) :
    (t.step e).PeerOnly ↔ ¬t.Late e := by
  unfold PeerOnly at sound ⊢
  cases e with
  | edit e =>
    refine iff_of_true ?_ id
    show (t.ledger.table.edited e).1.flat.PeerOnly
    rw [RouteTable.flat_edited]
    exact sound.edited e
  | detach q session =>
    refine iff_of_true ?_ id
    rcases t.ledger.step_detach_cases q session with ⟨-, is⟩ | ⟨-, is⟩ <;> rw [step, is]
    · dsimp only
      rw [RouteTable.flat_assign, sound.assign_iff]
      exact fun manned => absurd rfl manned
    · exact sound
  | close session =>
    refine iff_of_true ?_ id
    rcases t.ledger.step_close_cases session with is | is <;> rw [step, is] <;> exact sound
  | lookup i topic => exact iff_of_true sound id
  | use i p =>
    unfold Late
    by_cases shown : p ∈ t.shown i
    · rw [step, if_pos shown, peerOnly_use_iff sound]
      simp [shown]
    · rw [step, if_neg shown]
      exact iff_of_true sound fun late => shown late.1

theorem run_concat (events : List Event) (e : Event) :
    run (events ++ [e]) = (run events).step e :=
  List.foldl_concat ..

theorem peerOnly_empty : empty.PeerOnly := nofun

/-- **Sessions stand on peer routes at every moment just if no publisher is ever late.** -/
theorem always_peerOnly_iff (events : List Event) :
    (∀ earlier, earlier <+: events → (run earlier).PeerOnly) ↔
      ∀ earlier e, earlier ++ [e] <+: events → ¬(run earlier).Late e := by
  induction events using List.reverseRecOn with
  | nil =>
    refine iff_of_true (fun earlier within => ?_) fun earlier e within => ?_
    · rw [List.prefix_nil.1 within]
      exact peerOnly_empty
    · simp at within
  | append_singleton events e ih =>
    -- a moment is one of before, or the one after the last event
    simp only [List.prefix_concat_iff, or_imp, forall_and, forall_eq, ih]
    rw [and_comm]
    constructor
    · rintro ⟨before, now⟩
      have sound := ih.2 before events (List.prefix_refl events)
      rw [run_concat, peerOnly_step_iff sound] at now
      refine ⟨fun earlier e' same => ?_, before⟩
      obtain ⟨rfl, last⟩ := List.append_inj' same rfl
      cases last
      exact now
    · rintro ⟨now, before⟩
      have sound := ih.2 before events (List.prefix_refl events)
      refine ⟨before, ?_⟩
      rw [run_concat, peerOnly_step_iff sound]
      exact now events e rfl

/-- A publisher is shown a peer route, then the route's node serves the topic over a
stream at the same port, and then the publisher wants its session. -/
def overtaken : List Event :=
  [.edit (.apply "h" [⟨"t", 7000, .peerRtc⟩]), .lookup 0 "t",
    .edit (.apply "h" [⟨"t", 7000, .stream⟩]), .use 0 ⟨"t", "h", 7000⟩]

/-- Sessions do not always stand on peer routes. -/
theorem not_always_peerOnly : ¬∀ events, (run events).PeerOnly := by
  intro always
  have on_stream : (run overtaken).ledger.table.flat ⟨"t", "h", 7000⟩ = some ⟨.stream, some 0⟩ := by
    decide +kernel
  have peer := always overtaken _ _ on_stream nofun
  cases peer

end Traffic

end TopicMesh
