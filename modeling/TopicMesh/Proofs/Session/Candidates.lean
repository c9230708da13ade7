import TopicMesh.Proofs.Session.Conduct

/-!
# Candidates are applied in the order of their receipt

A handshake takes a candidate of the other end or refuses it.  Before the descriptions are
exchanged (`Stage.IsEarly`) it keeps what it takes, at most `limit` of them; at the exchange
it applies all that it kept, and from then on each one at once.

Besides a candidate itself, an input `Treats` the candidates that wait in one of three
ways: it leaves them, applies them all, or drops them because the handshake ends.  So
what was applied and what waits are together what was taken, in order, until the handshake
ends (`Accounted`); whatever it is fed, nothing is applied twice or out of order
(`candidates_in_receipt_order`).
-/

namespace TopicMesh

/-- Whether a session has not come to the exchange of descriptions. -/
def Stage.IsEarly (s : Stage) : Prop :=
  s.rank < Stage.answerExchanged.rank

instance (s : Stage) : Decidable s.IsEarly :=
  inferInstanceAs (Decidable (_ < _))

theorem Stage.isEarly_iff {s : Stage} :
    s.IsEarly ↔ ¬(s = .answerExchanged ∨ s = .ready) ∧ s ≠ .closed := by
  cases s <;> decide

theorem Stage.IsEarly.ne_closed {s : Stage} (early : s.IsEarly) : s ≠ .closed :=
  (isEarly_iff.1 early).2

namespace Handshake

/-- The candidate that an effect applies. -/
def Effect.applied? : Effect → Option Candidate
  | .applyCandidate c => some c
  | _ => none

/-- The candidates that some effects apply, in order. -/
def appliedIn (told : List Effect) : List Candidate :=
  told.filterMap Effect.applied?

/-- The candidate that an input brings and that is not refused. -/
def takenFrom (h : Handshake) (i : Input) : List Candidate :=
  match i, (h.handle i).2 with
  | .signal (.candidate c), .ok _ => [c]
  | _, _ => []

/-- The candidates of the other end that a run of inputs brings and that are not refused, in
the order of their receipt. -/
def taken (h : Handshake) : List Input → List Candidate
  | [] => []
  | i :: rest => h.takenFrom i ++ (h.feed i).1.taken rest

variable {h h' : Handshake} {effects told : List Effect} {took : List Candidate}

theorem appliedIn_append (told more : List Effect) :
    appliedIn (told ++ more) = appliedIn told ++ appliedIn more :=
  List.filterMap_append

theorem appliedIn_candidates (cs : List Candidate) :
    appliedIn (cs.map .applyCandidate) = cs := by
  unfold appliedIn
  rw [List.filterMap_map]
  exact List.filterMap_some

/-! ## What an input does to the candidates that wait -/

/-- **What an input may do to the candidates that wait**, unless it brings one. -/
inductive Treats (h h' : Handshake) (effects : List Effect) : Prop
  /-- They wait on. -/
  | leaves (same : h'.waiting = h.waiting) (none : appliedIn effects = [])
      (stays : h.stage.IsEarly → h'.stage.IsEarly) (ended : h.stage = .closed → h'.stage = .closed)
  /-- The descriptions are exchanged, and all are applied. -/
  | applies (early : h.stage.IsEarly) (exchanged : h'.stage = .answerExchanged)
      (empty : h'.waiting = []) (all : appliedIn effects = h.waiting)
  /-- The handshake ends. -/
  | drops (ended : h'.stage = .closed) (empty : h'.waiting = []) (none : appliedIn effects = [])

/-- Whether a turn, if the input is allowed, treats the waiting candidates so. -/
def Turn.Treats (h : Handshake) (turn : Turn) : Prop :=
  ∀ effects, turn.2 = .ok effects → Handshake.Treats h turn.1 effects

theorem treats_allowed {result : Handshake × List Effect} (treats : Treats h result.1 result.2) :
    Turn.Treats h (allowed result) := by
  intro effects same
  cases same
  exact treats

theorem treats_error (v : Violation) : Turn.Treats h (h, .error v) :=
  nofun

theorem treats_endWith (reason : CloseReason) (farewell : Bool) :
    Turn.Treats h (allowed (h.endWith reason farewell)) := by
  refine treats_allowed ?_
  unfold endWith
  split
  · next gone => exact .leaves rfl rfl id fun _ => gone
  · refine .drops rfl rfl ?_
    split <;> rfl

theorem treats_streamClosed : Turn.Treats h (h.handle .streamClosed) := by
  refine treats_allowed ?_
  unfold endWith
  split
  · next gone => exact .leaves rfl rfl id fun _ => gone
  · exact .drops rfl rfl rfl

theorem treats_onStart : Turn.Treats h h.onStart := by
  unfold onStart
  split
  · next idle =>
    have early : Stage.connecting.IsEarly := by decide
    exact treats_allowed (.leaves rfl rfl (fun _ => early) (by simp [idle]))
  · exact treats_error _

theorem treats_onStreamOpened : Turn.Treats h h.onStreamOpened := by
  unfold onStreamOpened
  split
  · next connecting =>
    split
    · exact treats_allowed (.leaves rfl rfl id id)
    · have early : Stage.awaitingOffer.IsEarly := by decide
      exact treats_allowed (.leaves rfl rfl (fun _ => early) (by simp [connecting]))
  · exact treats_error _

theorem treats_onLocalDescription (description : String) :
    Turn.Treats h (h.onLocalDescription description) := by
  unfold onLocalDescription
  split
  · split
    · next allowed =>
      have early : Stage.offerSent.IsEarly := by decide
      exact treats_allowed (.leaves rfl rfl (fun _ => early) (by simp [allowed.1]))
    · exact treats_error _
  · split
    · next allowed =>
      have early : h.stage.IsEarly := allowed.1 ▸ by decide
      exact treats_allowed (.applies early rfl rfl (appliedIn_candidates h.waiting))
    · exact treats_error _

theorem treats_onOffer (description : String) : Turn.Treats h (h.onOffer description) := by
  unfold onOffer
  split
  · exact treats_allowed (.leaves rfl rfl id id)
  · exact treats_error _

theorem treats_onAnswer (description : String) : Turn.Treats h (h.onAnswer description) := by
  unfold onAnswer
  split
  · next allowed =>
    have early : h.stage.IsEarly := allowed.2 ▸ by decide
    exact treats_allowed (.applies early rfl rfl (appliedIn_candidates h.waiting))
  · exact treats_error _

theorem treats_onSignal {s : Signal} (other : ∀ c, s ≠ .candidate c) :
    Turn.Treats h (h.onSignal s) := by
  unfold onSignal
  split
  · exact treats_error _
  · cases s with
    | offer description => exact treats_onOffer description
    | answer description => exact treats_onAnswer description
    | candidate c => exact absurd rfl (other c)
    | bye => exact treats_endWith .remoteBye false

/-- Nothing that a machine says about its own candidates touches those that wait. -/
theorem treats_onLocalCandidate (c : Candidate) : Turn.Treats h (h.onLocalCandidate c) := by
  unfold onLocalCandidate
  split
  · exact treats_error _
  · split
    · exact treats_error _
    · exact treats_allowed (.leaves rfl rfl id id)

theorem treats_onChannelOpen : Turn.Treats h h.onChannelOpen := by
  unfold onChannelOpen
  split
  · next exchanged =>
    have late : ¬h.stage.IsEarly := exchanged ▸ by decide
    exact treats_allowed (.leaves rfl rfl (absurd · late) (by simp [exchanged]))
  · exact treats_allowed (.leaves rfl rfl id id)
  · exact treats_error _

theorem treats_onTimeout : Turn.Treats h h.onTimeout := by
  unfold onTimeout
  split
  · exact treats_allowed (.leaves rfl rfl id id)
  · exact treats_endWith .timeout true

/-- **An input that brings no candidate treats those that wait in one of three ways.** -/
theorem treats_handle {i : Input} (other : ∀ c, i ≠ .signal (.candidate c)) :
    Turn.Treats h (h.handle i) := by
  cases i with
  | start => exact treats_onStart
  | streamOpened => exact treats_onStreamOpened
  | localDescription description => exact treats_onLocalDescription description
  | signal s => exact treats_onSignal fun c same => other c (congrArg _ same)
  | localCandidate c => exact treats_onLocalCandidate c
  | channelOpen => exact treats_onChannelOpen
  | channelClosed => exact treats_endWith .channelClosed false
  | streamClosed => exact treats_streamClosed
  | timeout => exact treats_onTimeout
  | failed reason => exact treats_endWith (.failed reason) false
  | close => exact treats_endWith .requested true

/-! ## What a candidate comes to -/

/-- **What a candidate of the other end may come to.** -/
inductive Receives (h : Handshake) (c : Candidate) : Turn → Prop
  | applied (late : ¬h.stage.IsEarly) (still : h.stage ≠ .closed) :
    Receives h c (h, .ok [.applyCandidate c])
  | kept (early : h.stage.IsEarly) (room : h.waiting.length < h.limit) :
    Receives h c ({ h with waiting := h.waiting ++ [c] }, .ok [])
  | refused (early : h.stage.IsEarly) (full : h.limit ≤ h.waiting.length) :
    Receives h c (h, .error (.queueFull h.limit))
  | missed (gone : h.stage = .closed) : Receives h c (h, .error (.signalAfterClose "candidate"))

theorem receives_handle (c : Candidate) : Receives h c (h.handle (.signal (.candidate c))) := by
  show Receives h c (h.onSignal (.candidate c))
  unfold onSignal
  split
  · next gone => exact .missed gone
  next still =>
  show Receives h c (h.onCandidate c)
  unfold onCandidate
  split
  · next exchanged => exact .applied (fun early => (Stage.isEarly_iff.1 early).1 exchanged) still
  next waits =>
  have early : h.stage.IsEarly := Stage.isEarly_iff.2 ⟨waits, still⟩
  split
  · next room => exact .kept early room
  · next full => exact .refused early (Nat.le_of_not_lt full)

/-! ## The account of all candidates -/

/-- **Whether the candidates that were taken are accounted for**: while the handshake goes
on, each was applied or waits, in order. -/
structure Accounted (h : Handshake) (told : List Effect) (took : List Candidate) : Prop where
  going : h.stage ≠ .closed → appliedIn told ++ h.waiting = took
  applied : appliedIn told <+: took
  bounded : h.waiting.length ≤ h.limit
  empty : ¬h.stage.IsEarly → h.waiting = []

theorem accounted_new (role : Role) (limit : Nat) : Accounted (new role limit) [] [] :=
  ⟨fun _ => rfl, List.nil_prefix, Nat.zero_le _, fun _ => rfl⟩

/-- A handshake keeps its bound. -/
theorem Move.limit_eq (move : Move h h' effects) : h'.limit = h.limit := by
  cases move <;> rfl

theorem Treats.accounted (treats : Treats h h' effects) (bound : h'.limit = h.limit)
    (accounted : Accounted h told took) : Accounted h' (told ++ effects) took := by
  obtain ⟨going, applied, bounded, empty⟩ := accounted
  cases treats with
  | leaves same none stays ended =>
    have told_same : appliedIn (told ++ effects) = appliedIn told := by
      rw [appliedIn_append, none, List.append_nil]
    refine ⟨fun still => ?_, told_same ▸ applied, same ▸ bound ▸ bounded, fun late => ?_⟩
    · rw [told_same, same]
      exact going (mt ended still)
    · exact same.trans (empty (mt stays late))
  | applies early exchanged none all =>
    have told_all : appliedIn (told ++ effects) = took := by
      rw [appliedIn_append, all, going early.ne_closed]
    exact ⟨fun _ => by rw [told_all, none, List.append_nil], told_all ▸ List.prefix_rfl,
      none ▸ Nat.zero_le _, fun _ => none⟩
  | drops ended none no_more =>
    have told_same : appliedIn (told ++ effects) = appliedIn told := by
      rw [appliedIn_append, no_more, List.append_nil]
    exact ⟨fun still => absurd ended still, told_same ▸ applied, none ▸ Nat.zero_le _, fun _ => none⟩

/-- A candidate goes on the account when it is taken. -/
theorem Accounted.receive (accounted : Accounted h told took) (c : Candidate) :
    Accounted (h.feed (.signal (.candidate c))).1
      (told ++ (h.feed (.signal (.candidate c))).2)
      (took ++ h.takenFrom (.signal (.candidate c))) := by
  have receives := receives_handle (h := h) c
  unfold feed takenFrom
  generalize h.handle (.signal (.candidate c)) = turn at receives ⊢
  obtain ⟨going, applied, bounded, empty⟩ := accounted
  cases receives with
  | applied late still =>
    have told_all : appliedIn (told ++ [.applyCandidate c]) = took ++ [c] := by
      rw [appliedIn_append, ← going still, empty late, List.append_nil]
      rfl
    refine ⟨fun _ => ?_, told_all ▸ List.prefix_rfl, bounded, empty⟩
    show appliedIn (told ++ [.applyCandidate c]) ++ h.waiting = took ++ [c]
    rw [told_all, empty late, List.append_nil]
  | kept early room =>
    refine ⟨fun _ => ?_, ?_, ?_, fun late => absurd early late⟩
    · show appliedIn (told ++ []) ++ (h.waiting ++ [c]) = took ++ [c]
      rw [List.append_nil, ← List.append_assoc, going early.ne_closed]
    · show appliedIn (told ++ []) <+: took ++ [c]
      rw [List.append_nil]
      exact applied.trans (List.prefix_append took [c])
    · show (h.waiting ++ [c]).length ≤ h.limit
      rw [List.length_append, List.length_singleton]
      exact room
  | refused | missed =>
    show Accounted h (told ++ []) (took ++ [])
    rw [List.append_nil, List.append_nil]
    exact ⟨going, applied, bounded, empty⟩

/-- **The account stays right, whatever is fed.** -/
theorem Accounted.feed (accounted : Accounted h told took) (i : Input) :
    Accounted (h.feed i).1 (told ++ (h.feed i).2) (took ++ h.takenFrom i) := by
  by_cases brings : ∃ c, i = .signal (.candidate c)
  · obtain ⟨c, rfl⟩ := brings
    exact accounted.receive c
  have other : ∀ c, i ≠ .signal (.candidate c) := fun c same => brings ⟨c, same⟩
  have none : h.takenFrom i = [] := by
    unfold takenFrom
    split
    · next c _ _ => exact absurd rfl (other c)
    · rfl
  have treats := treats_handle (h := h) other
  have moves := moves_handle (h := h) i
  rw [none, List.append_nil]
  unfold Handshake.feed
  split
  · next m effects is =>
    rw [is] at treats moves
    exact (treats effects rfl).accounted (moves.move effects rfl).limit_eq accounted
  · next m v is =>
    rw [is] at moves
    obtain rfl : m = h := moves.unchanged v rfl
    rwa [List.append_nil]

theorem Accounted.run (accounted : Accounted h told took) (inputs : List Input) :
    Accounted (h.run inputs).1 (told ++ (h.run inputs).2) (took ++ h.taken inputs) := by
  induction inputs generalizing h told took with
  | nil =>
    show Accounted h (told ++ []) (took ++ [])
    rwa [List.append_nil, List.append_nil]
  | cons i rest ih =>
    show Accounted ((h.feed i).1.run rest).1 (told ++ ((h.feed i).2 ++ _)) (took ++ (_ ++ _))
    rw [← List.append_assoc, ← List.append_assoc]
    exact ih (accounted.feed i)

theorem limit_run (h : Handshake) (inputs : List Input) : (h.run inputs).1.limit = h.limit := by
  induction inputs generalizing h with
  | nil => rfl
  | cons i rest ih => exact (ih (h.feed i).1).trans (move_feed i).limit_eq

/-- When a candidate is refused, and how that is said. -/
theorem refused_iff (bounded : h.waiting.length ≤ h.limit) (c : Candidate) (v : Violation) :
    (h.handle (.signal (.candidate c))).2 = .error v ↔
      h.stage.IsEarly ∧ h.waiting.length = h.limit ∧ v = .queueFull h.limit ∨
        h.stage = .closed ∧ v = .signalAfterClose "candidate" := by
  have receives := receives_handle (h := h) c
  generalize h.handle (.signal (.candidate c)) = turn at receives ⊢
  cases receives with
  | applied late still => simp [late, still]
  | kept early room => simp [early.ne_closed, Nat.ne_of_lt room]
  | refused early full =>
    simp [early, early.ne_closed, Nat.le_antisymm bounded full, eq_comm]
  | missed gone =>
    have late : ¬Stage.closed.IsEarly := by decide
    simp [late, gone, eq_comm]

/-- **How a handshake treats the candidates of the other end**, by what it has told and the
candidates that it took. -/
structure Replays (limit : Nat) (h : Handshake) (told : List Effect) (took : List Candidate) :
    Prop extends Accounted h told took where
  limit_eq : h.limit = limit
  /-- A candidate is refused just if there is no room before the exchange, or after the end. -/
  refused : ∀ c v, (h.handle (.signal (.candidate c))).2 = .error v ↔
    h.stage.IsEarly ∧ h.waiting.length = limit ∧ v = .queueFull limit ∨
      h.stage = .closed ∧ v = .signalAfterClose "candidate"
  /-- A candidate is applied after the other end's description. -/
  after_description : ∀ before c after, told = before ++ .applyCandidate c :: after →
    ∃ kind description, .applyDescription kind description ∈ before

/-- An effect that applies a description, by its kind. -/
theorem Effect.of_isApplied {e : Effect} (applied : e.kind.isApplied = true) :
    ∃ kind description, e = .applyDescription kind description := by
  cases e with
  | applyDescription kind description => exact ⟨kind, description, rfl⟩
  | send s => cases s <;> cases applied
  | _ => cases applied

/-- **Candidates are applied in the order of their receipt, none lost and none twice.** -/
theorem candidates_in_receipt_order (role : Role) (limit : Nat) (inputs : List Input) :
    Replays limit ((new role limit).run inputs).1 ((new role limit).run inputs).2
      ((new role limit).taken inputs) := by
  have accounted := (accounted_new role limit).run inputs
  have bound : ((new role limit).run inputs).1.limit = limit := limit_run (new role limit) inputs
  obtain ⟨-, lawful⟩ := lawful_run (coherent_new role limit) (recorded_new role limit)
    (lawful_nil role) inputs
  refine ⟨accounted, bound, fun c v => ?_, fun before c after same => ?_⟩
  · have refused := refused_iff accounted.bounded c v
    rwa [bound] at refused
  · obtain ⟨k, there, applied⟩ := (lawful (before.map Effect.kind) .candidateApplied
      (after.map Effect.kind) (by rw [same, List.map_append]; rfl)).inOrder
    obtain ⟨e, told_before, rfl⟩ := List.mem_map.1 there
    obtain ⟨kind, description, rfl⟩ := Effect.of_isApplied applied
    exact ⟨kind, description, told_before⟩

/-- With room for one, a second early candidate is refused; the first one is applied after
the answer, and a late one at once. -/
example (c d e : Candidate) :
    ((new .initiator 1).run [.start, .streamOpened, .signal (.candidate c), .signal (.candidate d),
      .localDescription "o", .signal (.answer "a"), .signal (.candidate e)]).2 =
        [.createOffer, .send (.offer "o"), .applyDescription .answer "a", .applyCandidate c,
          .applyCandidate e] :=
  rfl

end Handshake

end TopicMesh
