import Mathlib.Data.List.Pairwise
import TopicMesh.Proofs.Discovery.History
import TopicMesh.Proofs.RouteTable.Commuting

/-!
# The order of announcements

A node that joins late is told the retained announcements in the order of their topics,
one that was there heard them in the order in which they were made.  The order between
different nodes makes no difference: an announcement touches the routes of its host and
what is remembered of its topic, and it is read off these alone what it does there.

Two payloads are **apart** if they come on different topics and name different hosts, as
far as they can be read (`Apart`).  Taking them in, in either order, leads to the same
outlook, and each is answered in the same way, with the same sessions closed
(`apart_commute`); hence any number of payloads that are apart may come in any order
(`outlook_of_perm`).
-/

namespace TopicMesh

namespace Discovery

/-- What is remembered of a node's topic after an announcement. -/
def kept? (a : Announcement) (known : KeyMap String UInt16) : Option (KeyMap String UInt16) :=
  match a.status with
  | .disconnected => none
  | .connected => (remember known a.updates).nonEmpty?

theorem absorb_fst (d : Discovery) (node : String) (a : Announcement) :
    (d.absorb node a).1 =
      { d with announced := d.announced.put node (kept? a (d.announced.innerOf node)) } := by
  unfold absorb kept?
  cases a.status <;> rfl

/-- What an announcement does to the table hangs on what is remembered of its topic. -/
theorem absorb_snd_congr {d d' : Discovery} {node : String} (a : Announcement)
    (same : d.announced.innerOf node = d'.announced.innerOf node) :
    (d.absorb node a).2 = (d'.absorb node a).2 := by
  unfold absorb
  rw [same]
  cases a.status <;> rfl

/-- It is done to the announced host. -/
theorem host_of_mem_absorb {d : Discovery} {node : String} {a : Announcement} :
    ∀ op ∈ (d.absorb node a).2, op.host = a.host := by
  intro op there
  unfold absorb at there
  cases hs : a.status with
  | disconnected =>
    rw [hs] at there
    rw [List.mem_singleton.1 there]
    rfl
  | connected =>
    rw [hs] at there
    dsimp only at there
    split at there
    · rw [List.mem_singleton.1 there]
      rfl
    · rcases List.mem_pair.1 there with rfl | rfl <;> rfl

/-- What is remembered of other topics stays. -/
theorem innerOf_absorb_of_ne (d : Discovery) {node other : String} (ne : node ≠ other)
    (a : Announcement) :
    (d.absorb node a).1.announced.innerOf other = d.announced.innerOf other := by
  rw [absorb_fst]
  exact KeyMap.innerOf_put_of_ne _ ne _

/-- What an announcement does to the table, it does after one on another topic. -/
theorem absorb_snd_absorb (d : Discovery) {node other : String} (ne : node ≠ other)
    (a b : Announcement) : ((d.absorb node a).1.absorb other b).2 = (d.absorb other b).2 :=
  absorb_snd_congr b (d.innerOf_absorb_of_ne ne a)

variable {σ : Type}

theorem onHost_absorb (d : Discovery) (node : String) (a : Announcement) :
    RouteTable.OnHost a.host fun t : RouteTable σ => (TableOp.runAll t (d.absorb node a).2).1 :=
  TableOp.onHost_runAll host_of_mem_absorb

/-- **The sessions that an announcement displaces are no others after one on another topic
and of another host.** -/
theorem displaced_absorb (d : Discovery) (t : RouteTable σ) {node other : String}
    (ne : node ≠ other) {a b : Announcement} (hosts : a.host ≠ b.host) :
    (TableOp.runAll (TableOp.runAll t (d.absorb node a).2).1
        ((d.absorb node a).1.absorb other b).2).2 =
      (TableOp.runAll t (d.absorb other b).2).2 := by
  have same : RouteTable.SameOn b.host (TableOp.runAll t (d.absorb node a).2).1 t :=
    (d.onHost_absorb node a).elsewhere hosts t
  rw [d.absorb_snd_absorb ne]
  exact TableOp.displaced_runAll_congr host_of_mem_absorb same

theorem absorb_fst_comm (d : Discovery) {node other : String} (ne : node ≠ other)
    (a b : Announcement) :
    ((d.absorb node a).1.absorb other b).1 = ((d.absorb other b).1.absorb node a).1 := by
  simp only [absorb_fst, KeyMap.innerOf_put_of_ne _ ne, KeyMap.innerOf_put_of_ne _ (Ne.symm ne),
    KeyMap.put_comm _ ne]

theorem absorbInto_comm (d : Discovery) (t : RouteTable σ) {node other : String}
    (ne : node ≠ other) {a b : Announcement} (hosts : a.host ≠ b.host) :
    (d.absorbInto t node a).1.absorbInto (d.absorbInto t node a).2 other b =
      (d.absorbInto t other b).1.absorbInto (d.absorbInto t other b).2 node a := by
  refine Prod.ext (d.absorb_fst_comm ne a b) ?_
  unfold absorbInto
  dsimp only
  rw [d.absorb_snd_absorb ne, d.absorb_snd_absorb (Ne.symm ne)]
  exact ((d.onHost_absorb other b).commute (d.onHost_absorb node a) (Ne.symm hosts)).eq t

end Discovery

/-- A payload, and the topic that it comes on. -/
abbrev Parcel := String × Bytes

/-- The announcement that a payload brings, if there is one to listen to. -/
def Parcel.heard? (c : DiscoveryConfig) (x : Parcel) : Option Announcement :=
  match Discovery.heard? c x.1 x.2 with
  | .ok (some a) => some a
  | _ => none

theorem Parcel.heard?_eq_some {c : DiscoveryConfig} {x : Parcel} {a : Announcement} :
    x.heard? c = some a ↔ Discovery.heard? c x.1 x.2 = .ok (some a) := by
  unfold heard?
  rcases Discovery.heard? c x.1 x.2 with fault | _ | a <;> simp

/-- What is heard can be read. -/
theorem Parcel.decode_of_heard {c : DiscoveryConfig} {x : Parcel} {a : Announcement}
    (heard : x.heard? c = some a) : Announcement.decode x.2 = .ok a := by
  have heard := heard?_eq_some.1 heard
  unfold Discovery.heard? at heard
  split at heard
  · cases heard
  · cases read : Announcement.decode x.2 with
    | error fault =>
      rw [read] at heard
      cases heard
    | ok b =>
      rw [read] at heard
      cases heard
      rfl

/-- **Whether two payloads are apart**: on different topics, and, as far as they can be
read, of different hosts. -/
structure Apart (x y : Parcel) : Prop where
  topics : x.1 ≠ y.1
  hosts : ∀ a b, Announcement.decode x.2 = .ok a → Announcement.decode y.2 = .ok b →
    a.host ≠ b.host

theorem Apart.symm {x y : Parcel} (apart : Apart x y) : Apart y x :=
  ⟨Ne.symm apart.topics, fun a b ha hb => Ne.symm (apart.hosts b a hb ha)⟩

instance : Std.Symm Apart := ⟨fun _ _ => Apart.symm⟩

theorem Apart.hosts_ne {c : DiscoveryConfig} {x y : Parcel} (apart : Apart x y)
    {a b : Announcement} (ha : x.heard? c = some a) (hb : y.heard? c = some b) : a.host ≠ b.host :=
  apart.hosts a b (Parcel.decode_of_heard ha) (Parcel.decode_of_heard hb)

namespace Outlook

open Discovery

variable {σ : Type} (c : DiscoveryConfig)

/-- How a payload is answered: with its fault, or with the sessions that it closes. -/
def answer (o : Outlook σ) (x : Parcel) : Except Announcement.DecodeFault (List σ) :=
  (o.discovery.handle c o.table x.1 x.2).map fun taken => taken.2.2

variable {c} {x y : Parcel}

theorem answer_of_heard {a : Announcement} (heard : x.heard? c = some a) (o : Outlook σ) :
    o.answer c x = .ok (TableOp.runAll o.table (o.discovery.absorb x.1 a).2).2 := by
  unfold answer handle operations
  rw [Parcel.heard?_eq_some.1 heard]
  rfl

/-- A payload with nothing to hear is answered alike by everyone. -/
theorem answer_of_unheard (unheard : x.heard? c = none) (o o' : Outlook σ) :
    o.answer c x = o'.answer c x := by
  unfold Parcel.heard? at unheard
  unfold answer handle operations
  rcases h : Discovery.heard? c x.1 x.2 with fault | _ | a
  · rfl
  · rfl
  · simp [h] at unheard

variable [DecidableEq σ]

variable (c) in
/-- The outlook after a payload. -/
def take (o : Outlook σ) (x : Parcel) : Outlook σ :=
  (o.step c (.payload x.1 x.2)).1

omit [DecidableEq σ] in
theorem heard?_payload :
    (Event.payload x.1 x.2 : Event σ).heard? c = (x.heard? c).map fun a => (x.1, a) := by
  simp only [Event.heard?, Parcel.heard?]
  rcases Discovery.heard? c x.1 x.2 with fault | _ | a <;> rfl

theorem take_of_heard {a : Announcement} (heard : x.heard? c = some a) (o : Outlook σ) :
    o.take c x =
      ⟨(o.discovery.absorbInto o.table x.1 a).1, (o.discovery.absorbInto o.table x.1 a).2⟩ := by
  have brings : (Event.payload x.1 x.2 : Event σ).heard? c = some (x.1, a) := by
    rw [heard?_payload, heard]
    rfl
  exact congrArg Prod.fst (o.step_of_heard brings)

theorem take_of_unheard (unheard : x.heard? c = none) (o : Outlook σ) : o.take c x = o := by
  have brings : (Event.payload x.1 x.2 : Event σ).heard? c = none := by
    rw [heard?_payload, unheard]
    rfl
  exact congrArg Prod.fst (o.step_payload_of_unheard brings)

/-- **A payload leaves what another one that is apart from it is answered by**: the ports
known of its topic, and the routes of its host. -/
theorem answer_take (apart : Apart x y) (o : Outlook σ) :
    (o.take c x).answer c y = o.answer c y := by
  cases hy : y.heard? c with
  | none => exact answer_of_unheard hy _ _
  | some b =>
    cases hx : x.heard? c with
    | none => rw [take_of_unheard hx]
    | some a =>
      rw [answer_of_heard hy, answer_of_heard hy, take_of_heard hx]
      exact congrArg _ (o.discovery.displaced_absorb o.table apart.topics (apart.hosts_ne hx hy))

theorem take_comm (apart : Apart x y) (o : Outlook σ) :
    (o.take c x).take c y = (o.take c y).take c x := by
  cases hx : x.heard? c with
  | none => rw [take_of_unheard hx, take_of_unheard hx]
  | some a =>
    cases hy : y.heard? c with
    | none => rw [take_of_unheard hy, take_of_unheard hy]
    | some b =>
      have both := o.discovery.absorbInto_comm o.table apart.topics (apart.hosts_ne hx hy)
      rw [take_of_heard hx, take_of_heard hy, take_of_heard hy, take_of_heard hx]
      dsimp only
      rw [both]

/-- **Two payloads that are apart may come in either order**: the outlook is the same in
the end, and each is answered in the same way, with the same sessions closed. -/
theorem apart_commute (apart : Apart x y) (o : Outlook σ) :
    (o.take c x).take c y = (o.take c y).take c x ∧
      (o.take c y).answer c x = o.answer c x ∧ (o.take c x).answer c y = o.answer c y :=
  ⟨take_comm apart o, answer_take apart.symm o, answer_take apart o⟩

/-- Two nodes serve one topic, both with a session. -/
def crowd : Outlook Nat :=
  run ⟨"me", "here", "d", true⟩ [
    .announced "d/m" ⟨.connected, "g", .ofList [("t", ⟨.peerRtc, 1⟩)]⟩,
    .announced "d/n" ⟨.connected, "h", .ofList [("t", ⟨.peerRtc, 1⟩)]⟩,
    .use ⟨"t", "g", 1⟩ (fun _ => false) 8, .use ⟨"t", "h", 1⟩ (fun _ => false) 9]

/-- One of them moves and the other leaves: a session each is closed, whoever is first. -/
theorem move_and_departure_commute :
    let c : DiscoveryConfig := ⟨"me", "here", "d", true⟩
    let moves : Announcement := ⟨.connected, "g", .ofList [("t", ⟨.peerRtc, 2⟩)]⟩
    let x : Parcel := ("d/m", moves.encode.toOption.getD [])
    let y : Parcel := ("d/n", (Announcement.departure "h").encode.toOption.getD [])
    (crowd.take c x).take c y = (crowd.take c y).take c x ∧
      (crowd.take c y).answer c x = .ok [8] ∧ (crowd.take c x).answer c y = .ok [9] := by
  intro c moves x y
  have apart : Apart x y := by
    refine ⟨by decide, fun a b ha hb => ?_⟩
    rw [show Announcement.decode x.2 = .ok moves by decide +kernel] at ha
    rw [show Announcement.decode y.2 = .ok (.departure "h") by decide +kernel] at hb
    cases ha
    cases hb
    decide
  obtain ⟨same, moved, left⟩ := apart_commute (c := c) apart crowd
  exact ⟨same, moved.trans (by decide +kernel), left.trans (by decide +kernel)⟩

/-! ## Any order -/

/-- **Payloads that are apart from each other may come in any order.** -/
theorem outlook_of_perm {parcels parcels' : List Parcel} (apart : parcels.Pairwise Apart)
    (perm : parcels.Perm parcels') (o : Outlook σ) :
    parcels.foldl (take c) o = parcels'.foldl (take c) o := by
  refine perm.foldl_eq' (fun x hx y hy o => ?_) o
  by_cases same : x = y
  · rw [same]
  · exact take_comm (apart.forall hx hy same) o

end Outlook

end TopicMesh
