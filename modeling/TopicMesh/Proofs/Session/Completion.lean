import TopicMesh.Proofs.Session.Readiness

/-!
# Two joined sessions, assembled

`Interleaving.lean` proves that every run of proper moves keeps what is known of two
joined sessions, and `Readiness.lean` that nothing is left over while no disturbance is
fed to either.  This module reads off what that means to the owners of the sessions.

* A session that knows of an exchange has the other end's own description as its remote
  one (`Agreeing.agreed`).  The initiator knows once the answer is off the stream, and
  the responder once it has sent it; what an end said of itself it never takes back.
* Neither handshake is ever given an input that is a violation.
* A pair at rest that no timeout, no close and no failing transport has disturbed has
  both sessions ready.
-/

namespace TopicMesh

open JoinedEnd Session

namespace SessionPair

variable {t : Terms} {offer answer : Transit} {p : SessionPair}

/-- **A session that knows of the exchange was told what the other end says of
itself.** -/
theorem Agreeing.agreed (h : Agreeing t offer answer p) (role : Role)
    (known : (p.session role).machine.stage = .answerExchanged ∨
      (p.session role).machine.stage = .ready) :
    ∃ description, (p.session role).machine.remoteDescription = some description ∧
      (p.session (other role)).machine.localDescription = some description := by
  cases role with
  | initiator =>
    have known : p.initiator.standing.machine.stage = .answerExchanged ∨
        p.initiator.standing.machine.stage = .ready := known
    cases h.near.stands with
    | ended _ closed => exact absurd closed (not_closed_of_agreed known)
    | dialing _ _ fresh =>
      obtain ⟨limit, machine⟩ := fresh
      rw [machine] at known
      exact known.elim nofun nofun
    | offered _ _ _ _ _ stage =>
      rw [stage] at known
      exact known.elim nofun nofun
    | agreed _ _ arrived _ theirs =>
      have mine : p.responder.machine.localDescription = _ := h.far.mine
      rw [arrived] at mine
      exact ⟨t.answer, theirs, mine⟩
  | responder =>
    have known : p.responder.standing.machine.stage = .answerExchanged ∨
        p.responder.standing.machine.stage = .ready := known
    cases h.far.stands with
    | ended _ closed => exact absurd closed (not_closed_of_agreed known)
    | awaiting _ _ _ fresh =>
      obtain ⟨limit, machine⟩ := fresh
      rw [machine] at known
      exact known.elim nofun nofun
    | agreed _ _ sent _ theirs =>
      have mine : p.initiator.machine.localDescription = _ := h.near.mine
      rw [h.ordered sent] at mine
      exact ⟨t.offer, theirs, mine⟩

/-! ## Runs on which nothing goes wrong -/

/-- Whether some moves take a pair to another, and feed neither a violation nor a
disturbance on the way. -/
structure Reaches (p : SessionPair) (moves : List Move) (p' : SessionPair) : Prop where
  run : p.run moves = p'
  smooth : Smooth (p.history moves)

theorem reaches_nil (p : SessionPair) : p.Reaches [] p :=
  ⟨rfl, smooth_nil⟩

theorem reaches_cons {p p₁ p₂ : SessionPair} {m : Move} {rest : List Move} (moved : p.move m = p₁)
    (smooth : Smooth (p.fedBy m)) (later : p₁.Reaches rest p₂) : p.Reaches (m :: rest) p₂ := by
  subst moved
  exact ⟨later.run, smooth_append_iff.2 ⟨smooth, later.smooth⟩⟩

theorem Reaches.append {p p₁ p₂ : SessionPair} {first later : List Move}
    (reaches : p.Reaches first p₁) (others : p₁.Reaches later p₂) :
    p.Reaches (first ++ later) p₂ := by
  induction first generalizing p with
  | nil =>
    obtain rfl : p = p₁ := reaches.run
    exact others
  | cons m rest ih =>
    obtain ⟨calm, smooth⟩ := smooth_append_iff.1 reaches.smooth
    exact reaches_cons rfl calm (ih ⟨reaches.run, smooth⟩)

end SessionPair

open SessionPair

namespace Terms

/-- The initiator once it has offered, from its stage, what it was told, its channel and
what it sends. -/
def nearAt (t : Terms) (stage : Stage) (theirs : Option String) (peer : DirectPeer)
    (outgoing : List StreamItem) : Session JoinedEnd where
  machine := ⟨.initiator, stage, true, true, some t.offer, theirs, [], t.near.candidates⟩
  phase := .running
  published := stage
  held := []
  holdLimit := t.near.frames
  inputs := []
  world := ⟨peer, 0, outgoing⟩
  log := []

/-- The responder once it has answered, from its stage, its channel and what it sends. -/
def farAt (t : Terms) (stage : Stage) (peer : DirectPeer) (outgoing : List StreamItem) :
    Session JoinedEnd where
  machine := ⟨.responder, stage, true, false, some t.answer, some t.offer, [], t.far.candidates⟩
  phase := .running
  published := stage
  held := []
  holdLimit := t.far.frames
  inputs := []
  world := ⟨peer, t.port, outgoing⟩
  log := []

/-- Two sessions between which there is no connection. -/
def apart (initiator responder : Session JoinedEnd) : SessionPair :=
  ⟨initiator, responder, false, fun _ => false⟩

/-- The pair once everything has been said: the initiator's channel dials, and the
responder's listens. -/
def informed (t : Terms) : SessionPair :=
  let near : DirectPeer := .new .initiator t.sessionId t.host
  let far : DirectPeer := .new .responder t.remoteId t.remoteHost
  apart
    (t.nearAt .answerExchanged (some t.answer) { near with
      remote := some t.answer, dialing := true, target := some (t.remoteHost, t.port) } [])
    (t.farAt .answerExchanged { far with remote := some t.offer, ports := [t.port] } [])

/-- The initiator dials, and offer, answer and the responder's place are exchanged. -/
def signaling : List Move :=
  [.dialed, .arrive .responder, .report .responder, .arrive .initiator, .arrive .initiator]

/-- The connection is made, and both channels report it. -/
def connecting : List Move :=
  [.knock, .letIn, .report .initiator, .report .responder]

theorem informed_reached (t : Terms) (word : Text.IsWord t.remoteHost) :
    t.begin.Reaches signaling t.informed := by
  let near : DirectPeer := .new .initiator t.sessionId t.host
  let far : DirectPeer := .new .responder t.remoteId t.remoteHost
  let offering := t.nearAt .offerSent none near
  let answered := t.nearAt .answerExchanged (some t.answer) { near with remote := some t.answer }
  let listening : DirectPeer := { far with remote := some t.offer, ports := [t.port] }
  let listens := t.farAt .answerExchanged listening
  let answering := t.farAt .answerExchanged { listening with events := [.localCandidate t.place] }
  let offer : StreamItem := .of (.offer t.offer)
  let answer : StreamItem := .of (.answer t.answer)
  let place : StreamItem := .of (.candidate t.place)
  -- The initiator offers.
  obtain ⟨offers, smooth⟩ := react_dialed (s := t.begin.initiator) rfl rfl
  have moved : t.begin.move .dialed = apart (offering [offer]) t.begin.responder :=
    congrArg (apart · t.begin.responder) offers
  refine reaches_cons moved smooth ?_
  -- The responder answers, and its channel knows a place.
  obtain ⟨answers, smooth⟩ :=
    react_offer (s := t.begin.responder) rfl rfl rfl rfl (describes_offer t)
  obtain ⟨moved, feeds⟩ := arrive_responder
    (p := apart (offering [offer]) t.begin.responder) rfl
  have moved : SessionPair.move _ _ = apart (offering []) (answering [answer]) :=
    moved.trans (congrArg (apart (offering [])) answers)
  refine reaches_cons moved (feeds.symm ▸ smooth) ?_
  -- The responder passes the place on.
  obtain ⟨tells, smooth⟩ := react_localCandidate (s := listens [answer]) (c := t.place)
    rfl rfl nofun nofun
  obtain ⟨moved, feeds⟩ := report_responder (p := apart (offering []) (answering [answer])) rfl
  have moved : SessionPair.move _ _ = apart (offering []) (listens [answer, place]) :=
    moved.trans (congrArg (apart (offering [])) tells)
  refine reaches_cons moved (feeds.symm ▸ smooth) ?_
  -- The initiator hears the answer, and then the place.
  obtain ⟨hears, smooth⟩ := react_answer (s := offering []) rfl rfl rfl rfl rfl rfl
    (describes_answer t)
  obtain ⟨moved, feeds⟩ := arrive_initiator
    (p := apart (offering []) (listens [answer, place])) rfl
  have moved : SessionPair.move _ _ = apart (answered []) (listens [place]) :=
    moved.trans (congrArg (apart · (listens [place])) hears)
  refine reaches_cons moved (feeds.symm ▸ smooth) ?_
  obtain ⟨dials, smooth⟩ := react_candidate (s := answered []) (c := t.place) rfl rfl (.inl rfl)
  rw [applyCandidate_place word (by exact rfl)] at dials
  obtain ⟨moved, feeds⟩ := arrive_initiator
    (p := apart (answered []) (listens [place])) rfl
  have moved := moved.trans (congrArg (apart · (listens [])) dials)
  exact reaches_cons moved (feeds.symm ▸ smooth) (reaches_nil _)

/-- A pair whose sessions are ready and whose connection is made. -/
def connected (t : Terms) : SessionPair :=
  let near : DirectPeer := .new .initiator t.sessionId t.host
  let far : DirectPeer := .new .responder t.remoteId t.remoteHost
  let initiator := t.nearAt .ready (some t.answer) { near with
    remote := some t.answer, dialing := true, isOpen := true } []
  let responder := t.farAt .ready { far with
    remote := some t.offer, ports := [t.port], isOpen := true } []
  apart (initiator.note .ready) (responder.note .ready)

theorem connected_reached (t : Terms) : t.informed.Reaches connecting t.connected := by
  have listens : t.informed.isListening t.port = true := by
    show ([t.port].contains t.port && true) = true
    rw [List.contains_iff_mem.2 List.mem_cons_self]
    rfl
  have target : t.informed.initiator.world.peer.target = some (t.remoteHost, t.port) := rfl
  have knocks := knock_heard target listens
  refine reaches_cons knocks smooth_nil <| reaches_cons rfl smooth_nil <|
    reaches_cons rfl ?_ <| reaches_cons rfl ?_ <| reaches_nil _
  · exact smooth_singleton ⟨_, rfl⟩ not_false
  · exact smooth_singleton ⟨_, rfl⟩ not_false

theorem isAtRest_connected (t : Terms) : t.connected.isAtRest = true := rfl

/-- **Two joined sessions can come to rest undisturbed**, whatever they are set up
with. -/
theorem comes_to_rest (t : Terms) (word : Text.IsWord t.remoteHost) :
    (t.begin.run (signaling ++ connecting)).isAtRest = true ∧
      Undisturbed (t.begin.history (signaling ++ connecting)) := by
  have reaches := (t.informed_reached word).append t.connected_reached
  rw [reaches.run]
  exact ⟨t.isAtRest_connected, reaches.smooth.undisturbed⟩

/-! ## The sessions -/

/-- **Two joined sessions agree, never violate the exchange, and become ready unless
they are disturbed.**  The moves may come in every order.  A proper move takes nothing
from a stream or a channel that the other end did not put there; the owners, the clocks
and failing transports may do what they like, but the last part asks that none of them
disturbed either handshake. -/
theorem sessions_agree_and_complete (t : Terms) {moves : List Move}
    (proper : ∀ m ∈ moves, m.IsProper) :
    let p := t.begin.run moves
    (∀ role, (p.session role).machine.stage = .answerExchanged ∨
        (p.session role).machine.stage = .ready →
      ∃ description, (p.session role).machine.remoteDescription = some description ∧
        (p.session (other role)).machine.localDescription = some description) ∧
    AllAccepted (t.opening ++ t.begin.history moves) ∧
    (Text.IsWord t.remoteHost → Undisturbed (t.begin.history moves) → p.isAtRest = true →
      ∀ role, (p.session role).machine.stage = .ready) := by
  intro p
  obtain ⟨⟨offer, answer, agreeing⟩, accepted⟩ := agreeing_run t.agreeing_begin proper
  refine ⟨agreeing.agreed, fun f there => ?_, fun word undisturbed rest role => ?_⟩
  · exact (List.mem_append.1 there).elim (t.allAccepted_opening f) (accepted f)
  · have underway := underway_run t.underway_begin t.agreeing_begin word proper undisturbed
    obtain ⟨near, far⟩ := ready_of_rest underway (rests_of_isAtRest rest)
    cases role with
    | initiator => exact near
    | responder => exact far

theorem plain_sessions_complete :
    let t : Terms := ⟨⟨1000, 4, 4⟩, ⟨1000, 4, 4⟩, "a", "b", "h", "k", 7⟩
    let moves := signaling ++ connecting
    (∀ m ∈ moves, m.IsProper) ∧ Text.IsWord t.remoteHost ∧
      Undisturbed (t.begin.history moves) ∧ (t.begin.run moves).isAtRest = true ∧
      ∀ role, ((t.begin.run moves).session role).machine.stage = .ready := by
  intro t moves
  have proper : ∀ m ∈ moves, m.IsProper := by
    simp [moves, signaling, connecting, Move.IsProper]
  have word : Text.IsWord "k" := by
    have letters : "k".toList = ['k'] := by decide
    refine ⟨by decide, fun c there => ?_⟩
    rw [letters, List.mem_singleton] at there
    rw [there]
    rfl
  obtain ⟨rest, undisturbed⟩ := t.comes_to_rest word
  obtain ⟨-, -, completes⟩ := sessions_agree_and_complete t proper
  exact ⟨proper, word, undisturbed, rest, completes word undisturbed rest⟩

end Terms

end TopicMesh
