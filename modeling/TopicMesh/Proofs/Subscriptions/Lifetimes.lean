import Mathlib.Data.List.DropRight
import Mathlib.Data.List.Induction
import TopicMesh.Proofs.KeyMap.Reading
import TopicMesh.Subscriptions

/-!
# The lifetimes of subscriptions

What is asked of the subscriptions of a node is a list of `Call`s.  The **lifetime** of a
topic's record is read off that list: the calls after the last one that ended the record,
from the first offer for the topic on (`lifetime`).  The offer at its front gave the record
all but its callbacks, and these are the distinct ones that the calls of the lifetime
brought, in the order in which they first came (`get?_after`).

An endpoint is not copied and not dropped.  What the records hold and what a call hands
back is what they held before and what the call offered (`endpoints_step`), so **every
endpoint that was offered is in one place**: with one record, or handed back once
(`endpoints_after_perm`).
-/

namespace TopicMesh.Subscriptions

/-- What is asked of the subscriptions of a node, whose callbacks are told apart by
identities. -/
inductive Call (γ : Type)
  /-- A callback is to join the record of a topic. -/
  | join (topic : String) (callback : γ)
  /-- A record with one callback is offered for a topic. -/
  | offer (topic : String) (callback : γ) (endpoint : Endpoint) (qos : QoS) (advertised : Bool)
  | remove (topic : String)
  | drain
deriving DecidableEq, Repr

variable {γ : Type}

namespace Call

/-- Whether a call ends the record of a topic, if there is one. -/
def ends (topic : String) : Call γ → Bool
  | remove t => t = topic
  | drain => true
  | _ => false

/-- The callback that a call brings to a topic. -/
def callback? (topic : String) : Call γ → Option γ
  | join t callback => if t = topic then some callback else none
  | offer t callback .. => if t = topic then some callback else none
  | _ => none

/-- The record that a call offers for a topic. -/
def record? (topic : String) : Call γ → Option (Subscription γ)
  | offer t callback endpoint qos advertised =>
    if t = topic then some ⟨[callback], endpoint, qos, advertised⟩ else none
  | _ => none

/-- The endpoint that a call offers. -/
def endpoint? : Call γ → Option Endpoint
  | offer _ _ endpoint _ _ => some endpoint
  | _ => none

end Call

/-- The calls since the record of a topic was last created, the creating one at their
front: what follows the last call that ended it, from the first offer on. -/
def lifetime (topic : String) (calls : List (Call γ)) : List (Call γ) :=
  (calls.rtakeWhile fun c => !c.ends topic).dropWhile fun c => (c.record? topic).isNone

/-- The endpoints that were offered. -/
def offered (calls : List (Call γ)) : List Endpoint :=
  calls.filterMap Call.endpoint?

/-- The endpoints that the records hold. -/
def endpoints (s : Subscriptions γ) : List Endpoint :=
  s.byTopic.values.map Subscription.endpoint

section Running

variable [DecidableEq γ]

/-- The record that the calls of a lifetime leave: that of the first, with the distinct
callbacks of all, in the order in which they first came. -/
def recordOf (topic : String) (calls : List (Call γ)) : Option (Subscription γ) :=
  (calls.head?.bind (Call.record? topic)).map fun first =>
    { first with callbacks := (calls.filterMap (Call.callback? topic)).eraseDups }

/-- The subscriptions after a call, and the endpoints that it hands back. -/
def step (s : Subscriptions γ) : Call γ → Subscriptions γ × List Endpoint
  | .join topic callback => ((s.join topic callback).1, [])
  | .offer topic callback endpoint qos advertised =>
    match s.insert topic ⟨[callback], endpoint, qos, advertised⟩ with
    | (s, .inserted) => (s, [])
    | (s, .merged unused) => (s, [unused])
  | .remove topic => ((s.remove topic).1, (s.remove topic).2.toList.map Subscription.endpoint)
  | .drain => (s.drain.1, s.drain.2.map fun e => e.2.endpoint)

/-- The subscriptions after some calls, and the endpoints that were handed back, oldest
first. -/
def run (calls : List (Call γ)) : Subscriptions γ × List Endpoint :=
  calls.foldl (fun s c => ((s.1.step c).1, s.2 ++ (s.1.step c).2)) (empty, [])

/-- The subscriptions after some calls. -/
def after (calls : List (Call γ)) : Subscriptions γ :=
  (run calls).1

/-- The endpoints that some calls handed back, oldest first. -/
def handedBack (calls : List (Call γ)) : List Endpoint :=
  (run calls).2

theorem after_concat (calls : List (Call γ)) (c : Call γ) :
    after (calls ++ [c]) = ((after calls).step c).1 := by
  unfold after run
  rw [List.foldl_concat]

theorem handedBack_concat (calls : List (Call γ)) (c : Call γ) :
    handedBack (calls ++ [c]) = handedBack calls ++ ((after calls).step c).2 := by
  unfold handedBack after run
  rw [List.foldl_concat]

end Running

/-! ## One call -/

section OneCall

variable [DecidableEq γ] (s : Subscriptions γ)

/-- A record offered where there is none becomes the topic's record. -/
theorem step_offer_of_none {topic : String} (fresh : s.get? topic = none) (callback : γ)
    (endpoint : Endpoint) (qos : QoS) (advertised : Bool) :
    s.step (.offer topic callback endpoint qos advertised) =
      (⟨s.byTopic.insert topic ⟨[callback], endpoint, qos, advertised⟩⟩, []) := by
  rw [step, insert, fresh]

/-- A record offered where there is one lets its callback join, and comes back. -/
theorem step_offer_of_some {topic : String} {record : Subscription γ}
    (there : s.get? topic = some record) (callback : γ) (endpoint : Endpoint) (qos : QoS)
    (advertised : Bool) :
    s.step (.offer topic callback endpoint qos advertised) =
      (⟨s.byTopic.insert topic (record.join callback)⟩, [endpoint]) := by
  rw [step, insert, there]
  rfl

/-- **What a call does to the record of a topic**: it ends it, or brings it a callback, or
creates it. -/
theorem get?_step (c : Call γ) (topic : String) :
    (s.step c).1.get? topic =
      if c.ends topic then none
      else match s.get? topic with
        | some record => some ((c.callback? topic).elim record record.join)
        | none => c.record? topic := by
  have put : ∀ (t : String) (record : Subscription γ),
      get? ⟨s.byTopic.insert t record⟩ topic = if t = topic then some record else s.get? topic :=
    fun t record => KeyMap.get?_insert ..
  -- a call for another topic leaves the record as it is
  have elsewhere : c.ends topic = false → c.callback? topic = none → c.record? topic = none →
      s.get? topic = if c.ends topic then none
        else match s.get? topic with
          | some record => some ((c.callback? topic).elim record record.join)
          | none => c.record? topic := by
    intro goes_on nobody nothing
    rw [goes_on, nobody, nothing]
    cases s.get? topic <;> rfl
  cases c with
  | join t callback =>
    show ((s.join t callback).1).get? topic = _
    unfold join
    by_cases here : t = topic
    · subst here
      cases found : s.get? t with
      | none => exact found
      | some record => simp [put, Call.ends, Call.callback?]
    · rw [← elsewhere rfl (if_neg here) rfl]
      cases s.get? t with
      | none => rfl
      | some record => exact (put t _).trans (if_neg here)
  | offer t callback endpoint qos advertised =>
    by_cases here : t = topic
    · subst here
      cases found : s.get? t with
      | none => simp [step_offer_of_none s found, put, Call.ends, Call.record?]
      | some record => simp [step_offer_of_some s found, put, Call.ends, Call.callback?]
    · rw [← elsewhere rfl (if_neg here) (if_neg here)]
      cases found : s.get? t with
      | none =>
        rw [step_offer_of_none s found]
        exact (put t _).trans (if_neg here)
      | some record =>
        rw [step_offer_of_some s found]
        exact (put t _).trans (if_neg here)
  | remove t =>
    have erased : (s.step (.remove t)).1.get? topic = if t = topic then none else s.get? topic :=
      KeyMap.get?_erase ..
    rw [erased]
    by_cases here : t = topic
    · rw [if_pos here]
      exact (if_pos (decide_eq_true here)).symm
    · rw [if_neg here]
      exact elsewhere (decide_eq_false here) rfl rfl
  | drain => rfl

end OneCall

/-! ## Lifetimes -/

section Lifetimes

variable {topic : String}

/-- The lifetime of a record ends, goes on, or begins. -/
theorem lifetime_concat (calls : List (Call γ)) (c : Call γ) :
    lifetime topic (calls ++ [c]) =
      if c.ends topic then []
      else if lifetime topic calls = [] ∧ c.record? topic = none then []
      else lifetime topic calls ++ [c] := by
  unfold lifetime
  rw [List.rtakeWhile_concat]
  cases c.ends topic with
  | true => rfl
  | false =>
    rw [Bool.not_false, if_pos rfl, if_neg Bool.false_ne_true, List.dropWhile_append]
    generalize (calls.rtakeWhile _).dropWhile _ = life
    cases life with
    | cons first later => rfl
    | nil => cases record : c.record? topic <;> simp [record]

/-- A lifetime begins with the offer that created the record. -/
theorem isSome_record?_of_lifetime {calls : List (Call γ)} {first : Call γ}
    {later : List (Call γ)} (life : lifetime topic calls = first :: later) :
    (first.record? topic).isSome = true := by
  have front := List.head?_dropWhile_not (fun c : Call γ => (c.record? topic).isNone)
    (calls.rtakeWhile fun c => !c.ends topic)
  rw [show (calls.rtakeWhile _).dropWhile _ = first :: later from life] at front
  simpa using front

variable [DecidableEq γ]

theorem recordOf_lifetime_eq_none_iff {calls : List (Call γ)} :
    recordOf topic (lifetime topic calls) = none ↔ lifetime topic calls = [] := by
  cases life : lifetime topic calls with
  | nil => exact ⟨fun _ => rfl, fun _ => rfl⟩
  | cons first later =>
    obtain ⟨record, made⟩ := Option.isSome_iff_exists.1 (isSome_record?_of_lifetime life)
    simp [recordOf, made]

/-- An offer alone leaves the record that it offers. -/
theorem recordOf_singleton (c : Call γ) : recordOf topic [c] = c.record? topic := by
  cases c with
  | offer t callback endpoint qos advertised =>
    by_cases here : t = topic
    · simp [recordOf, Call.record?, Call.callback?, here, List.eraseDups_cons]
    · simp [recordOf, Call.record?, here]
  | _ => rfl

/-- A callback joins the distinct ones that came before it. -/
theorem eraseDups_concat (callbacks : List γ) (callback : γ) :
    (callbacks ++ [callback]).eraseDups =
      if callback ∈ callbacks.eraseDups then callbacks.eraseDups
      else callbacks.eraseDups ++ [callback] := by
  rw [List.eraseDups_append]
  by_cases known : callback ∈ callbacks <;>
    simp [List.removeAll, known, List.eraseDups_cons]

/-- One more call in a lifetime brings its callback, if it has one. -/
theorem recordOf_concat {first : Call γ} {later : List (Call γ)} (c : Call γ) :
    recordOf topic (first :: later ++ [c]) =
      (recordOf topic (first :: later)).map fun record =>
        (c.callback? topic).elim record record.join := by
  unfold recordOf
  rw [List.filterMap_append, List.cons_append, List.head?_cons, List.head?_cons]
  cases (some first).bind (Call.record? topic) with
  | none => rfl
  | some record =>
    rw [Option.map_some, Option.map_some, Option.map_some]
    cases brings : c.callback? topic with
    | none => simp [brings]
    | some callback =>
      rw [List.filterMap_cons_some brings, List.filterMap_nil, eraseDups_concat]
      simp only [Option.elim_some, Subscription.join]
      split <;> rfl

/-- **The record of a topic is the one that its lifetime leaves.** -/
theorem get?_after (calls : List (Call γ)) (topic : String) :
    (after calls).get? topic = recordOf topic (lifetime topic calls) := by
  induction calls using List.reverseRecOn with
  | nil => rfl
  | append_singleton calls c ih =>
    rw [after_concat, get?_step, ih, lifetime_concat]
    cases c.ends topic with
    | true => rfl
    | false =>
      rw [if_neg Bool.false_ne_true, if_neg Bool.false_ne_true]
      cases life : lifetime topic calls with
      | nil =>
        cases offers : c.record? topic with
        | none => rfl
        | some record =>
          rw [if_neg (by simp), List.nil_append, recordOf_singleton, offers]
          rfl
      | cons first later =>
        rw [if_neg (by simp)]
        cases made : recordOf topic (first :: later) with
        | some record =>
          rw [recordOf_concat, made]
          rfl
        | none =>
          have ended : lifetime topic calls = [] := by
            rw [← recordOf_lifetime_eq_none_iff, life, made]
          rw [ended] at life
          cases life

/-- The callbacks of a topic are the distinct ones that its lifetime brought. -/
theorem callbacks_after (calls : List (Call γ)) (topic : String) :
    (after calls).callbacks topic =
      ((lifetime topic calls).filterMap (Call.callback? topic)).eraseDups := by
  unfold callbacks
  rw [get?_after]
  cases life : lifetime topic calls with
  | nil => rfl
  | cons first later =>
    obtain ⟨record, made⟩ := Option.isSome_iff_exists.1 (isSome_record?_of_lifetime life)
    simp [recordOf, made]

end Lifetimes

/-! ## Endpoints -/

section Endpoints

/-- The endpoints that are held are that of a topic, if it has a record, and those of the
other topics. -/
theorem endpoints_perm (s : Subscriptions γ) (topic : String) :
    s.endpoints.Perm
      ((s.get? topic).toList.map Subscription.endpoint ++ (s.remove topic).1.endpoints) := by
  have parts := (s.byTopic.values_perm topic).map Subscription.endpoint
  rwa [List.map_append] at parts

theorem endpoints_insert_perm (s : Subscriptions γ) (topic : String)
    (record : Subscription γ) :
    endpoints ⟨s.byTopic.insert topic record⟩ |>.Perm
      (record.endpoint :: (s.remove topic).1.endpoints) :=
  (s.byTopic.values_insert_perm topic record).map Subscription.endpoint

variable [DecidableEq γ]

/-- A record that one more callback joined holds the endpoint that it held. -/
theorem endpoints_join_perm {s : Subscriptions γ} {topic : String} {record : Subscription γ}
    (there : s.get? topic = some record) (callback : γ) :
    endpoints ⟨s.byTopic.insert topic (record.join callback)⟩ |>.Perm s.endpoints := by
  have before := s.endpoints_perm topic
  have now := s.endpoints_insert_perm topic (record.join callback)
  rw [there] at before
  rw [Subscription.endpoint_join] at now
  exact now.trans before.symm

/-- **A call copies no endpoint and drops none.** -/
theorem endpoints_step (s : Subscriptions γ) (c : Call γ) :
    ((s.step c).1.endpoints ++ (s.step c).2).Perm (s.endpoints ++ c.endpoint?.toList) := by
  cases c with
  | join topic callback =>
    show ((s.join topic callback).1.endpoints ++ []).Perm (s.endpoints ++ [])
    unfold join
    cases found : s.get? topic with
    | none => exact .refl _
    | some record => exact (endpoints_join_perm found callback).append_right []
  | offer topic callback endpoint qos advertised =>
    cases found : s.get? topic with
    | none =>
      rw [step_offer_of_none s found, List.append_nil]
      have before := s.endpoints_perm topic
      have now := s.endpoints_insert_perm topic ⟨[callback], endpoint, qos, advertised⟩
      rw [found] at before
      exact (now.trans (before.symm.cons endpoint)).trans (List.perm_append_singleton ..).symm
    | some record =>
      rw [step_offer_of_some s found]
      exact (endpoints_join_perm found callback).append_right [endpoint]
  | remove topic =>
    show ((s.remove topic).1.endpoints ++ (s.get? topic).toList.map Subscription.endpoint).Perm
      (s.endpoints ++ [])
    rw [List.append_nil]
    exact List.perm_append_comm.trans (s.endpoints_perm topic).symm
  | drain =>
    show ([] ++ s.byTopic.entries.map fun e : String × Subscription γ => e.2.endpoint).Perm
      (s.endpoints ++ [])
    rw [List.nil_append, List.append_nil, endpoints, KeyMap.values, List.map_map]
    exact .refl _

/-- **Every endpoint that was offered is in one place**: a record holds it, or it was handed
back. -/
theorem endpoints_after_perm (calls : List (Call γ)) :
    ((after calls).endpoints ++ handedBack calls).Perm (offered calls) := by
  induction calls using List.reverseRecOn with
  | nil => exact .nil
  | append_singleton calls c ih =>
    have asked : offered (calls ++ [c]) = offered calls ++ c.endpoint?.toList := by
      unfold offered
      rw [List.filterMap_append]
      cases offers : c.endpoint? <;> simp [offers]
    rw [after_concat, handedBack_concat, asked]
    have moved := endpoints_step (after calls) c
    -- of each endpoint as many are held or handed back as were offered
    rw [List.perm_iff_count] at ih moved ⊢
    intro e
    have before := ih e
    have now := moved e
    simp only [List.count_append] at before now ⊢
    omega

end Endpoints

/-! ## The books -/

/-- What the subscriptions that are left after some calls keep. -/
structure Keeps [DecidableEq γ] (calls : List (Call γ)) : Prop where
  /-- A topic's callbacks are the distinct ones that its lifetime brought, in the order in
  which they first came. -/
  callbacks : ∀ topic, (after calls).callbacks topic =
    ((lifetime topic calls).filterMap (Call.callback? topic)).eraseDups
  /-- Its record is the one that was offered at the front of its lifetime, but for the
  callbacks. -/
  record : ∀ topic, (after calls).get? topic =
    ((lifetime topic calls).head?.bind (Call.record? topic)).map fun first =>
      { first with callbacks := (after calls).callbacks topic }
  /-- An offer becomes the record where there is none, and otherwise gives its endpoint
  back. -/
  offers : ∀ topic callback endpoint qos advertised,
    ((after calls).insert topic ⟨[callback], endpoint, qos, advertised⟩).2 =
      if lifetime topic calls = [] then .inserted else .merged endpoint
  /-- Every endpoint that was offered is with one record, or was handed back once. -/
  endpoints : ((after calls).endpoints ++ handedBack calls).Perm (offered calls)

/-- **The subscriptions keep their books**, whatever is asked of them. -/
theorem keeps_callbacks_and_endpoints [DecidableEq γ] (calls : List (Call γ)) : Keeps calls where
  callbacks := callbacks_after calls
  record topic := by
    rw [callbacks_after]
    exact get?_after calls topic
  offers topic callback endpoint qos advertised := by
    have reading := get?_after calls topic
    unfold insert
    by_cases none_since : lifetime topic calls = []
    · rw [if_pos none_since, reading, recordOf_lifetime_eq_none_iff.2 none_since]
    · rw [if_neg none_since]
      cases found : (after calls).get? topic with
      | none => exact absurd (recordOf_lifetime_eq_none_iff.1 (reading ▸ found)) none_since
      | some record => rfl
  endpoints := endpoints_after_perm calls

end TopicMesh.Subscriptions
