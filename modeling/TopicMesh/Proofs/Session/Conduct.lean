import TopicMesh.Proofs.Sequence.Places
import TopicMesh.Proofs.Session.Feeding

/-!
# The conduct of a handshake

A handshake keeps to the protocol whatever it is fed, in whatever order.  What a step
may come to is a `Move` (`move_feed`); there are few of them, and each says in which
situation of the machine it is made.

The effects of a run are told in one list, of which only the kinds matter (`Kind`).
**Each effect is allowed after those that were told before it** (`Lawful`), because the
machine remembers what was told (`Recorded`): its descriptions are there just if they
were sent or applied, and its stage is `closed` just if that was told.  Counts and order
of the effects of a whole run follow (`conduct_of_run`).
-/

namespace TopicMesh

/-- Whether a session may come from one stage to another: it stays there, or goes on. -/
def Stage.Forward (s s' : Stage) : Prop :=
  s = s' ∨ s.rank < s'.rank

instance (s s' : Stage) : Decidable (s.Forward s') :=
  inferInstanceAs (Decidable (_ ∨ _))

theorem Stage.forward_closed (s : Stage) : s.Forward .closed := by
  cases s <;> decide

theorem Stage.Forward.trans {s₁ s₂ s₃ : Stage} (first : s₁.Forward s₂) (second : s₂.Forward s₃) :
    s₁.Forward s₃ := by
  rcases first with rfl | first
  · exact second
  · rcases second with rfl | second
    · exact .inr first
    · exact .inr (Nat.lt_trans first second)

namespace Handshake

/-- The kinds of effect. -/
inductive Kind
  | createOffer
  | createAnswer
  /-- An offer is sent. -/
  | offer
  /-- An answer is sent. -/
  | answer
  /-- A candidate is sent. -/
  | candidate
  /-- The farewell is sent. -/
  | bye
  | applied (kind : DescriptionKind)
  | candidateApplied
  | ready
  | closed
deriving DecidableEq, Repr

/-- The kind of an effect. -/
def Effect.kind : Effect → Kind
  | .send (.offer _) => .offer
  | .send (.answer _) => .answer
  | .send (.candidate _) => .candidate
  | .send .bye => .bye
  | .createOffer => .createOffer
  | .createAnswer => .createAnswer
  | .applyDescription kind _ => .applied kind
  | .applyCandidate _ => .candidateApplied
  | .ready => .ready
  | .closed _ => .closed

/-- Whether an effect sends a description. -/
def Kind.Describes (k : Kind) : Prop :=
  k = .offer ∨ k = .answer

/-- Whether an effect applies a description. -/
def Kind.isApplied : Kind → Bool
  | .applied _ => true
  | _ => false

/-- Whether whatever is told of one kind is told after something of certain kinds. -/
def After (told : List Kind) (k : Kind) (earlier : Kind → Prop) : Prop :=
  ∀ before after, told = before ++ k :: after → ∃ k' ∈ before, earlier k'

/-- **How a handshake conducts itself**, by what it has told. -/
structure Conduct (role : Role) (told : List Kind) : Prop where
  offer_once : told.count .offer ≤ 1
  offer_role : .offer ∈ told → role = .initiator
  answer_once : told.count .answer ≤ 1
  answer_role : .answer ∈ told → role = .responder
  answer_after : After told .answer (· = .applied .offer)
  applied_once : told.countP Kind.isApplied ≤ 1
  ready_once : told.count .ready ≤ 1
  ready_after_sent : After told .ready Kind.Describes
  ready_after_applied : After told .ready (·.isApplied)
  candidate_after : After told .candidate Kind.Describes
  bye_once : told.count .bye ≤ 1
  /-- The farewell is followed by the end at once. -/
  bye_last : ∀ before after, told = before ++ .bye :: after → after = [.closed]
  closed_once : told.count .closed ≤ 1
  /-- The end is followed by nothing. -/
  closed_last : ∀ before after, told = before ++ .closed :: after → after = []

/-! ## The moves -/

/-- **What a step may come to**: the machine after it, and the effects. -/
inductive Move (h : Handshake) : Handshake → List Effect → Prop
  /-- Nothing happens, as after a violation. -/
  | nothing : Move h h []
  | started (idle : h.stage = .idle) : Move h { h with stage := .connecting } []
  | dialed (connecting : h.stage = .connecting) (role : h.role = .initiator) :
    Move h { h with streamOpen := true } [.createOffer]
  | accepted (connecting : h.stage = .connecting) (role : h.role = .responder) :
    Move h { h with streamOpen := true, stage := .awaitingOffer } []
  | offered (description : String) (connecting : h.stage = .connecting)
      (role : h.role = .initiator) :
    Move h { h with offerSent := true, localDescription := some description, stage := .offerSent }
      [.send (.offer description)]
  | answered (description : String) (awaiting : h.stage = .awaitingOffer)
      (role : h.role = .responder) (heard : h.remoteDescription ≠ none)
      (silent : h.localDescription = none) :
    Move h { h with localDescription := some description, stage := .answerExchanged, waiting := [] }
      (.send (.answer description) :: h.waiting.map .applyCandidate)
  | tookOffer (description : String) (awaiting : h.stage = .awaitingOffer)
      (role : h.role = .responder) (unheard : h.remoteDescription = none) :
    Move h { h with remoteDescription := some description }
      [.applyDescription .offer description, .createAnswer]
  | tookAnswer (description : String) (sent : h.stage = .offerSent) (role : h.role = .initiator) :
    Move h { h with
        remoteDescription := some description, stage := .answerExchanged, waiting := [] }
      (.applyDescription .answer description :: h.waiting.map .applyCandidate)
  | tookCandidate (c : Candidate) (exchanged : h.stage = .answerExchanged ∨ h.stage = .ready) :
    Move h h [.applyCandidate c]
  | keptCandidate (c : Candidate) : Move h { h with waiting := h.waiting ++ [c] } []
  | named (c : Candidate) (still : h.stage ≠ .closed) (described : h.localDescription ≠ none) :
    Move h h [.send (.candidate c)]
  | opened (exchanged : h.stage = .answerExchanged) : Move h { h with stage := .ready } [.ready]
  | ended (reason : CloseReason) (streamOpen : Bool) (parting : List Effect)
      (still : h.stage ≠ .closed) (farewell : parting = [] ∨ parting = [.send .bye]) :
    Move h { h with streamOpen := streamOpen, stage := .closed, waiting := [] }
      (parting ++ [.closed reason])
  /-- The stream goes away after the end. -/
  | hungUp (gone : h.stage = .closed) : Move h { h with streamOpen := false } []

variable {h h' : Handshake}

/-- Whether a turn is a move, or a violation that changes nothing. -/
structure Moves (h : Handshake) (turn : Turn) : Prop where
  move : ∀ effects, turn.2 = .ok effects → Move h turn.1 effects
  unchanged : ∀ v, turn.2 = .error v → turn.1 = h

theorem moves_ok {result : Handshake × List Effect} (move : Move h result.1 result.2) :
    Moves h (allowed result) where
  move _ same := Except.ok.inj same ▸ move
  unchanged := nofun

theorem moves_error (v : Violation) : Moves h (h, .error v) where
  move := nofun
  unchanged _ _ := rfl

theorem moves_endWith (reason : CloseReason) (farewell : Bool) :
    Moves h (allowed (h.endWith reason farewell)) := by
  refine moves_ok ?_
  unfold endWith
  split
  · exact .nothing
  · next still =>
    refine .ended reason h.streamOpen _ still ?_
    split
    · exact .inr rfl
    · exact .inl rfl

theorem moves_streamClosed : Moves h (h.handle .streamClosed) := by
  refine moves_ok ?_
  unfold endWith
  split
  · next gone => exact .hungUp gone
  · next still => exact .ended .streamClosed false [] still (.inl rfl)

theorem moves_onStart : Moves h h.onStart := by
  unfold onStart
  split
  · next idle => exact moves_ok (.started idle)
  · exact moves_error _

theorem moves_onStreamOpened : Moves h h.onStreamOpened := by
  unfold onStreamOpened
  split
  · next connecting =>
    split
    · next role => exact moves_ok (.dialed connecting role)
    · next role => exact moves_ok (.accepted connecting role)
  · exact moves_error _

theorem moves_onLocalDescription (description : String) :
    Moves h (h.onLocalDescription description) := by
  unfold onLocalDescription
  split
  · next role =>
    split
    · next allowed => exact moves_ok (.offered description allowed.1 role)
    · exact moves_error _
  · next role =>
    split
    · next allowed =>
      obtain ⟨awaiting, heard, silent⟩ := allowed
      exact moves_ok (.answered description awaiting role (Option.isSome_iff_ne_none.1 heard) silent)
    · exact moves_error _

theorem moves_onSignal (s : Signal) : Moves h (h.onSignal s) := by
  unfold onSignal
  split
  · exact moves_error _
  · cases s with
    | offer description =>
      simp only [onOffer]
      split
      · next allowed => exact moves_ok (.tookOffer description allowed.2.1 allowed.1 allowed.2.2)
      · exact moves_error _
    | answer description =>
      simp only [onAnswer]
      split
      · next allowed => exact moves_ok (.tookAnswer description allowed.2 allowed.1)
      · exact moves_error _
    | candidate c =>
      simp only [onCandidate]
      split
      · next exchanged => exact moves_ok (.tookCandidate c exchanged)
      · split
        · exact moves_ok (.keptCandidate c)
        · exact moves_error _
    | bye => exact moves_endWith .remoteBye false

theorem moves_onLocalCandidate (c : Candidate) : Moves h (h.onLocalCandidate c) := by
  unfold onLocalCandidate
  split
  · exact moves_error _
  · next still =>
    split
    · exact moves_error _
    · next described => exact moves_ok (.named c still described)

theorem moves_onChannelOpen : Moves h h.onChannelOpen := by
  unfold onChannelOpen
  split
  · next exchanged => exact moves_ok (.opened exchanged)
  · exact moves_ok .nothing
  · exact moves_error _

theorem moves_onTimeout : Moves h h.onTimeout := by
  unfold onTimeout
  split
  · exact moves_ok .nothing
  · exact moves_endWith .timeout true

theorem moves_handle (i : Input) : Moves h (h.handle i) := by
  cases i with
  | start => exact moves_onStart
  | streamOpened => exact moves_onStreamOpened
  | localDescription description => exact moves_onLocalDescription description
  | signal s => exact moves_onSignal s
  | localCandidate c => exact moves_onLocalCandidate c
  | channelOpen => exact moves_onChannelOpen
  | channelClosed => exact moves_endWith .channelClosed false
  | streamClosed => exact moves_streamClosed
  | timeout => exact moves_onTimeout
  | failed reason => exact moves_endWith (.failed reason) false
  | close => exact moves_endWith .requested true

/-- **Every input brings a move.** -/
theorem move_feed (i : Input) : Move h (h.feed i).1 (h.feed i).2 := by
  have moves := moves_handle (h := h) i
  unfold feed
  split
  · next m effects is => exact (is ▸ moves).move effects rfl
  · next m v is =>
    -- a violation is a move as well: nothing happens
    obtain rfl : m = h := (is ▸ moves).unchanged v rfl
    exact .nothing

theorem Move.role_eq {effects : List Effect} (move : Move h h' effects) : h'.role = h.role := by
  cases move <;> rfl

theorem Move.forward {effects : List Effect} (move : Move h h' effects) :
    h.stage.Forward h'.stage := by
  cases move with
  | started idle => exact idle ▸ (by decide : Stage.idle.Forward .connecting)
  | accepted connecting _ => exact connecting ▸ (by decide : Stage.connecting.Forward .awaitingOffer)
  | offered _ connecting _ => exact connecting ▸ (by decide : Stage.connecting.Forward .offerSent)
  | answered _ awaiting _ _ _ =>
    exact awaiting ▸ (by decide : Stage.awaitingOffer.Forward .answerExchanged)
  | tookAnswer _ sent _ => exact sent ▸ (by decide : Stage.offerSent.Forward .answerExchanged)
  | opened exchanged => exact exchanged ▸ (by decide : Stage.answerExchanged.Forward .ready)
  | ended => exact h.stage.forward_closed
  | _ => exact .inl rfl

/-! ## What may be told -/

/-- Whether an effect is in its place after what was told before. -/
def Kind.InOrder (role : Role) (told : List Kind) : Kind → Prop
  | .createOffer => role = .initiator ∧ .offer ∉ told
  | .createAnswer => .applied .offer ∈ told
  | .offer => role = .initiator ∧ .offer ∉ told
  | .answer => role = .responder ∧ .answer ∉ told ∧ .applied .offer ∈ told
  | .candidate => ∃ k ∈ told, k.Describes
  | .applied _ => ∀ k ∈ told, ¬k.isApplied
  | .candidateApplied => ∃ k ∈ told, k.isApplied
  | .ready => .ready ∉ told ∧ (∃ k ∈ told, k.Describes) ∧ ∃ k ∈ told, k.isApplied
  | .bye | .closed => True

/-- **Whether an effect is allowed after what was told before.**  After the end nothing
is, and after the farewell just the end. -/
structure Kind.Allowed (role : Role) (told : List Kind) (k : Kind) : Prop where
  still : .closed ∉ told
  parting : .bye ∈ told → k = .closed
  inOrder : k.InOrder role told

/-- Whether everything that was told was allowed when it was told. -/
def Lawful (role : Role) (told : List Kind) : Prop :=
  ∀ before k after, told = before ++ k :: after → k.Allowed role before

theorem lawful_nil (role : Role) : Lawful role [] := by
  intro before k after same
  exact absurd same (List.append_ne_nil_of_right_ne_nil _ (List.cons_ne_nil k after)).symm

theorem Lawful.concat {role : Role} {told : List Kind} (lawful : Lawful role told) {k : Kind}
    (allowed : k.Allowed role told) : Lawful role (told ++ [k]) :=
  forall_split_concat.2 ⟨lawful, allowed⟩

/-- Candidates may be applied once a description was. -/
theorem Lawful.candidates {role : Role} {told : List Kind} (lawful : Lawful role told)
    (still : .closed ∉ told) (staying : .bye ∉ told) {k : Kind} (there : k ∈ told)
    (applied : k.isApplied) (cs : List Candidate) :
    Lawful role (told ++ (cs.map .applyCandidate).map Effect.kind) := by
  have kinds : (cs.map Effect.applyCandidate).map Effect.kind =
      List.replicate cs.length .candidateApplied := by
    rw [List.map_map]
    exact List.map_const'
  rw [kinds]
  induction cs.length with
  | zero => rwa [List.replicate_zero, List.append_nil]
  | succ n ih =>
    rw [List.replicate_succ', ← List.append_assoc]
    refine ih.concat ⟨?_, ?_, ?_⟩
    · simp [still]
    · simp [staying]
    · exact ⟨k, List.mem_append_left _ there, applied⟩

/-! ## What the machine remembers -/

/-- Whether the descriptions of a machine go with its stage. -/
structure Coherent (h : Handshake) : Prop where
  early : h.stage = .idle ∨ h.stage = .connecting →
    h.localDescription = none ∧ h.remoteDescription = none
  waits : h.stage = .offerSent → h.localDescription ≠ none ∧ h.remoteDescription = none
  exchanged : h.stage = .answerExchanged ∨ h.stage = .ready →
    h.localDescription ≠ none ∧ h.remoteDescription ≠ none

/-- **Whether a machine remembers what was told.** -/
structure Recorded (h : Handshake) (told : List Kind) : Prop where
  offer : .offer ∈ told ↔ h.role = .initiator ∧ h.localDescription ≠ none
  answer : .answer ∈ told ↔ h.role = .responder ∧ h.localDescription ≠ none
  appliedOffer : .applied .offer ∈ told ↔ h.role = .responder ∧ h.remoteDescription ≠ none
  appliedAnswer : .applied .answer ∈ told ↔ h.role = .initiator ∧ h.remoteDescription ≠ none
  ready : .ready ∈ told → h.stage = .ready ∨ h.stage = .closed
  closed : .closed ∈ told ↔ h.stage = .closed
  bye : .bye ∈ told → .closed ∈ told

variable {effects : List Effect} {told : List Kind}

theorem coherent_new (role : Role) (limit : Nat) : Coherent (new role limit) :=
  ⟨fun _ => ⟨rfl, rfl⟩, nofun, fun late => nomatch late⟩

theorem Move.coherent (move : Move h h' effects) (coherent : Coherent h) : Coherent h' := by
  obtain ⟨early, waits, exchanged⟩ := coherent
  cases move with
  | offered _ connecting _ =>
    obtain ⟨-, unheard⟩ := early (.inr connecting)
    exact ⟨nofun, fun _ => ⟨Option.some_ne_none _, unheard⟩, nofun⟩
  | answered _ _ _ heard _ => exact ⟨nofun, nofun, fun _ => ⟨Option.some_ne_none _, heard⟩⟩
  | tookOffer _ awaiting _ _ => exact ⟨by simp [awaiting], by simp [awaiting], by simp [awaiting]⟩
  | tookAnswer _ sent _ =>
    obtain ⟨described, -⟩ := waits sent
    exact ⟨nofun, nofun, fun _ => ⟨described, Option.some_ne_none _⟩⟩
  | opened ready => exact ⟨nofun, nofun, fun _ => exchanged (.inl ready)⟩
  | started idle => exact ⟨fun _ => early (.inl idle), nofun, nofun⟩
  | accepted | ended => exact ⟨nofun, nofun, nofun⟩
  | _ => exact ⟨early, waits, exchanged⟩

theorem recorded_new (role : Role) (limit : Nat) : Recorded (new role limit) [] := by
  constructor <;> simp [new]

/-- **A move is remembered.** -/
theorem Move.recorded (move : Move h h' effects) (recorded : Recorded h told) :
    Recorded h' (told ++ effects.map Effect.kind) := by
  obtain ⟨offer, answer, appliedOffer, appliedAnswer, ready, closed, bye⟩ := recorded
  cases move with
  | ended _ _ _ still farewell =>
    -- the end is told in the same move, also after a farewell
    rcases farewell with rfl | rfl <;> constructor <;> simp_all [Effect.kind]
  | _ =>
    -- a description is sent or applied in the very move that keeps it
    constructor <;> simp_all [Effect.kind]

/-- A machine that has not ended has said neither its farewell nor its end. -/
theorem Recorded.going (recorded : Recorded h told) (still : h.stage ≠ .closed) :
    .closed ∉ told ∧ .bye ∉ told :=
  ⟨fun said => still (recorded.closed.1 said),
    fun said => still (recorded.closed.1 (recorded.bye said))⟩

/-- While the machine has not ended, whatever is in order is allowed. -/
theorem Recorded.allowed (recorded : Recorded h told) (still : h.stage ≠ .closed) {k : Kind}
    (inOrder : k.InOrder h.role told) : k.Allowed h.role told where
  still := (recorded.going still).1
  parting said := absurd said (recorded.going still).2
  inOrder := inOrder

/-- A machine that is described has told so. -/
theorem Recorded.described (recorded : Recorded h told) (described : h.localDescription ≠ none) :
    ∃ k ∈ told, k.Describes := by
  cases role : h.role with
  | initiator => exact ⟨.offer, recorded.offer.2 ⟨role, described⟩, .inl rfl⟩
  | responder => exact ⟨.answer, recorded.answer.2 ⟨role, described⟩, .inr rfl⟩

/-- A machine that knows the other end's description has had it applied. -/
theorem Recorded.heard (recorded : Recorded h told) (heard : h.remoteDescription ≠ none) :
    ∃ k ∈ told, k.isApplied := by
  cases role : h.role with
  | initiator => exact ⟨.applied .answer, recorded.appliedAnswer.2 ⟨role, heard⟩, rfl⟩
  | responder => exact ⟨.applied .offer, recorded.appliedOffer.2 ⟨role, heard⟩, rfl⟩

/-- A machine that does not know the other end's description had none applied. -/
theorem Recorded.unheard (recorded : Recorded h told) (unheard : h.remoteDescription = none) :
    ∀ k ∈ told, ¬k.isApplied := by
  intro k said applied
  cases k with
  | applied kind =>
    cases kind with
    | offer => exact (recorded.appliedOffer.1 said).2 unheard
    | answer => exact (recorded.appliedAnswer.1 said).2 unheard
  | _ => cases applied

/-- **A move tells what is allowed.** -/
theorem Move.lawful (move : Move h h' effects) (coherent : Coherent h)
    (recorded : Recorded h told) (lawful : Lawful h.role told) :
    Lawful h.role (told ++ effects.map Effect.kind) := by
  have silence : Lawful h.role (told ++ [].map Effect.kind) := by rwa [List.map_nil, List.append_nil]
  have still {stage : Stage} (here : h.stage = stage) (other : stage ≠ .closed) :
      h.stage ≠ .closed := here ▸ other
  have undescribed (connecting : h.stage = .connecting) : .offer ∉ told := fun said =>
    (recorded.offer.1 said).2 (coherent.early (.inr connecting)).1
  cases move with
  | nothing | started | accepted | keptCandidate | hungUp => exact silence
  | dialed connecting role =>
    exact lawful.concat (recorded.allowed (still connecting nofun) ⟨role, undescribed connecting⟩)
  | offered d connecting role =>
    exact lawful.concat (recorded.allowed (still connecting nofun) ⟨role, undescribed connecting⟩)
  | answered d awaiting role heard silent =>
    have applied : .applied .offer ∈ told := recorded.appliedOffer.2 ⟨role, heard⟩
    have fresh : .answer ∉ told := fun said => (recorded.answer.1 said).2 silent
    have answer := lawful.concat
      (recorded.allowed (still awaiting nofun) (k := .answer) ⟨role, fresh, applied⟩)
    obtain ⟨open_, staying⟩ := recorded.going (still awaiting nofun)
    rw [List.map_cons, List.append_cons]
    exact answer.candidates (by simpa using open_) (by simpa using staying)
      (List.mem_append_left _ applied) rfl h.waiting
  | tookOffer d awaiting role unheard =>
    have applied := lawful.concat
      (recorded.allowed (still awaiting nofun) (k := .applied .offer) (recorded.unheard unheard))
    obtain ⟨open_, staying⟩ := recorded.going (still awaiting nofun)
    rw [List.map_cons, List.append_cons]
    refine applied.concat ⟨by simpa using open_, fun said => ?_, List.mem_concat_self⟩
    exact absurd said (by simpa using staying)
  | tookAnswer d sent role =>
    have applied := lawful.concat (recorded.allowed (still sent nofun) (k := .applied .answer)
      (recorded.unheard (coherent.waits sent).2))
    obtain ⟨open_, staying⟩ := recorded.going (still sent nofun)
    rw [List.map_cons, List.append_cons]
    exact applied.candidates (by simpa using open_) (by simpa using staying)
      List.mem_concat_self rfl h.waiting
  | tookCandidate c exchanged =>
    have open_ : h.stage ≠ .closed := exchanged.elim (still · nofun) (still · nofun)
    exact lawful.concat (recorded.allowed open_ (recorded.heard (coherent.exchanged exchanged).2))
  | named c open_ described =>
    exact lawful.concat (recorded.allowed open_ (recorded.described described))
  | opened exchanged =>
    obtain ⟨described, heard⟩ := coherent.exchanged (.inl exchanged)
    have fresh : .ready ∉ told := by
      intro said
      rcases recorded.ready said with ready | gone
      · rw [exchanged] at ready
        cases ready
      · exact still exchanged nofun gone
    exact lawful.concat (recorded.allowed (still exchanged nofun)
      ⟨fresh, recorded.described described, recorded.heard heard⟩)
  | ended reason streamOpen parting open_ farewell =>
    rcases farewell with rfl | rfl
    · exact lawful.concat (recorded.allowed open_ trivial)
    · have bye := lawful.concat (recorded.allowed open_ (k := .bye) trivial)
      rw [List.map_append, ← List.append_assoc]
      exact bye.concat ⟨by simpa using (recorded.going open_).1, fun _ => rfl, trivial⟩

/-! ## A run -/

/-- **What every run of a handshake has told was allowed when it was told.** -/
theorem lawful_run {h : Handshake} {told : List Kind} (coherent : Coherent h)
    (recorded : Recorded h told) (lawful : Lawful h.role told) (inputs : List Input) :
    Recorded (h.run inputs).1 (told ++ (h.run inputs).2.map Effect.kind) ∧
      Lawful h.role (told ++ (h.run inputs).2.map Effect.kind) := by
  induction inputs generalizing h told with
  | nil =>
    show Recorded h (told ++ []) ∧ Lawful h.role (told ++ [])
    rw [List.append_nil]
    exact ⟨recorded, lawful⟩
  | cons i rest ih =>
    have move := move_feed (h := h) i
    have further := ih (move.coherent coherent) (move.recorded recorded)
      (move.role_eq.symm ▸ move.lawful coherent recorded lawful)
    show Recorded ((h.feed i).1.run rest).1 (told ++ ((h.feed i).2 ++ _).map Effect.kind) ∧
      Lawful h.role (told ++ ((h.feed i).2 ++ _).map Effect.kind)
    rw [List.map_append, ← List.append_assoc, ← move.role_eq]
    exact further

theorem forward_run (h : Handshake) (inputs : List Input) :
    h.stage.Forward (h.run inputs).1.stage := by
  induction inputs generalizing h with
  | nil => exact .inl rfl
  | cons i rest ih => exact (move_feed i).forward.trans (ih (h.feed i).1)

/-! ## Counts and order -/

/-- What never comes after one of its like comes at most once. -/
theorem countP_le_one {l : List Kind} (p : Kind → Bool)
    (fresh : ∀ before k after, l = before ++ k :: after → p k → ∀ k' ∈ before, ¬p k') :
    l.countP p ≤ 1 := by
  induction l using List.reverseRecOn with
  | nil => exact Nat.zero_le 1
  | append_singleton l k ih =>
    rw [List.countP_append, List.countP_singleton]
    split
    · next last =>
      have none : l.countP p = 0 := List.countP_eq_zero.2 (fresh l k [] rfl last)
      exact Nat.le_of_eq (congrArg (· + 1) none)
    · refine ih fun before k' after same => fresh before k' (after ++ [k]) ?_
      rw [same, List.append_assoc, List.cons_append]

theorem Lawful.count_le_one {role : Role} (lawful : Lawful role told) {k : Kind}
    (fresh : ∀ before, k.Allowed role before → k ∉ before) : told.count k ≤ 1 := by
  refine countP_le_one _ fun before k' after same is k'' there again => ?_
  obtain rfl : k' = k := eq_of_beq is
  obtain rfl : k'' = k' := eq_of_beq again
  exact fresh before (lawful before k'' after same) there

/-- What was told was allowed at some moment. -/
theorem Lawful.allowed_of_mem {role : Role} (lawful : Lawful role told) {k : Kind}
    (there : k ∈ told) : ∃ before, k.Allowed role before := by
  obtain ⟨before, after, same⟩ := List.append_of_mem there
  exact ⟨before, lawful before k after same⟩

theorem Lawful.closed_last {role : Role} (lawful : Lawful role told) {before after : List Kind}
    (same : told = before ++ .closed :: after) : after = [] := by
  cases after with
  | nil => rfl
  | cons k rest =>
    have allowed := lawful (before ++ [.closed]) k rest (by rw [same, List.append_cons])
    exact absurd List.mem_concat_self allowed.still

/-- The farewell is the last but one, in what a machine remembers. -/
theorem Lawful.bye_last {role : Role} (lawful : Lawful role told) (recorded : Recorded h told)
    {before after : List Kind} (same : told = before ++ .bye :: after) : after = [.closed] := by
  have gone : .closed ∈ told := recorded.bye (same ▸ List.mem_append_right _ List.mem_cons_self)
  cases after with
  | nil =>
    -- the end was told, but not before the farewell
    rw [same, List.mem_append, List.mem_singleton] at gone
    rcases gone with earlier | other
    · exact absurd earlier (lawful before .bye [] same).still
    · cases other
  | cons k rest =>
    have split : told = (before ++ [.bye]) ++ k :: rest := by rw [same, List.append_cons]
    obtain rfl : k = .closed := (lawful _ k rest split).parting List.mem_concat_self
    rw [lawful.closed_last split]

/-- **Lawful effects that are remembered are the conduct of a handshake.** -/
theorem Lawful.conduct {role : Role} (lawful : Lawful role told) (recorded : Recorded h told) :
    Conduct role told where
  offer_once := lawful.count_le_one fun _ allowed => allowed.inOrder.2
  offer_role said := (lawful.allowed_of_mem said).elim fun _ allowed => allowed.inOrder.1
  answer_once := lawful.count_le_one fun _ allowed => allowed.inOrder.2.1
  answer_role said := (lawful.allowed_of_mem said).elim fun _ allowed => allowed.inOrder.1
  answer_after before after same :=
    ⟨_, (lawful before .answer after same).inOrder.2.2, rfl⟩
  applied_once := countP_le_one _ fun before k after same applied => by
    cases k with
    | applied => exact (lawful before _ after same).inOrder
    | _ => cases applied
  ready_once := lawful.count_le_one fun _ allowed => allowed.inOrder.1
  ready_after_sent before after same := (lawful before .ready after same).inOrder.2.1
  ready_after_applied before after same := (lawful before .ready after same).inOrder.2.2
  candidate_after before after same := (lawful before .candidate after same).inOrder
  bye_once := lawful.count_le_one fun _ allowed said => nomatch allowed.parting said
  bye_last _ _ same := lawful.bye_last recorded same
  closed_once := lawful.count_le_one fun _ allowed => allowed.still
  closed_last _ _ same := lawful.closed_last same

theorem run_append (h : Handshake) (inputs more : List Input) :
    h.run (inputs ++ more) =
      (((h.run inputs).1.run more).1, (h.run inputs).2 ++ ((h.run inputs).1.run more).2) := by
  induction inputs generalizing h with
  | nil => rfl
  | cons i rest ih =>
    show (((h.feed i).1.run (rest ++ more)).1, (h.feed i).2 ++ ((h.feed i).1.run (rest ++ more)).2) = _
    rw [ih, ← List.append_assoc]
    rfl

/-- **A handshake keeps to the protocol, whatever it is fed.**  It tells at each moment
just what is due, it never goes back, and a violation changes nothing of the machine. -/
theorem conduct_of_run (role : Role) (limit : Nat) (inputs : List Input) :
    Conduct role (((new role limit).run inputs).2.map Effect.kind) ∧
      (∀ more, ((new role limit).run inputs).1.stage.Forward
        ((new role limit).run (inputs ++ more)).1.stage) ∧
      ∀ i v, (((new role limit).run inputs).1.handle i).2 = .error v →
        (((new role limit).run inputs).1.handle i).1 = ((new role limit).run inputs).1 := by
  refine ⟨?_, fun more => ?_, fun i v => (moves_handle i).unchanged v⟩
  · obtain ⟨recorded, lawful⟩ := lawful_run (coherent_new role limit) (recorded_new role limit)
      (lawful_nil role) inputs
    exact lawful.conduct recorded
  · rw [run_append]
    exact forward_run _ more

/-- All that an initiator tells, from the beginning to its farewell. -/
example :
    ((new .initiator 8).run [.start, .streamOpened, .localDescription "o", .signal (.answer "a"),
      .channelOpen, .close]).2.map Effect.kind =
        [.createOffer, .offer, .applied .answer, .ready, .bye, .closed] := by
  decide

end Handshake

end TopicMesh
