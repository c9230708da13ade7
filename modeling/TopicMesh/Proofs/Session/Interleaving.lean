import TopicMesh.Proofs.Session.Agreement

/-!
# Two joined sessions, move after move

`fedBy` lists what a move of a pair feeds to the two handshakes, and `history` what a
run feeds.  A move is **proper** if what it takes from stream and channel is what the
other end put there; the owners, the clocks and failing transports may do what they
like.

What is known of either end (`Near`, `Far`) holds together in every pair that proper
moves reach (`agreeing_run`).
-/

namespace TopicMesh

open JoinedEnd

namespace Session

/-! ## Moves of the channels -/

section

variable {mayOpen : Prop} {p : DirectPeer}

/-- A channel whose place to dial may be forgotten, and of which something is read. -/
theorem peerMoved_of_events {p' : DirectPeer} (role : p'.role = p.role)
    (sessionId : p'.sessionId = p.sessionId) (host : p'.host = p.host)
    (events : p'.events = p.events) (target : p'.target.isSome = true → p.target.isSome = true) :
    PeerMoved mayOpen p p' :=
  ⟨role, sessionId, host, fun _ there => events ▸ there, fun there => .inl (events ▸ there), target⟩

theorem peerMoved_popped {event : ChannelEvent} {rest : List ChannelEvent}
    (events : p.events = event :: rest) : PeerMoved mayOpen p { p with events := rest } where
  role := rfl
  sessionId := rfl
  host := rfl
  candidates _ there := events ▸ List.mem_cons_of_mem event there
  opened there := .inl (events ▸ List.mem_cons_of_mem event there)
  target there := there

theorem PeerMoved.report {p' : DirectPeer} (moved : PeerMoved mayOpen p p') {e : ChannelEvent}
    (noCandidate : ∀ c, e ≠ .localCandidate c) (may : e = .opened → mayOpen) :
    PeerMoved mayOpen p (p'.report e) where
  role := moved.role
  sessionId := moved.sessionId
  host := moved.host
  candidates c there := by
    rcases List.mem_append.1 there with before | new
    · exact moved.candidates c before
    · exact absurd (List.mem_singleton.1 new).symm (noCandidate c)
  opened there := by
    rcases List.mem_append.1 there with before | new
    · exact moved.opened before
    · exact .inr (may (List.mem_singleton.1 new).symm)
  target := moved.target

theorem peerMoved_opened (may : mayOpen) : PeerMoved mayOpen p p.opened := by
  have closed : PeerMoved mayOpen p { p with target := none } :=
    peerMoved_of_events rfl rfl rfl rfl nofun
  have open_ : PeerMoved mayOpen p { p with target := none, isOpen := true } :=
    peerMoved_of_events rfl rfl rfl rfl nofun
  unfold DirectPeer.opened
  split
  · exact closed
  · exact open_.report nofun fun _ => may

theorem peerMoved_notOpened (reason : String) : PeerMoved mayOpen p (p.notOpened reason) := by
  have closed : PeerMoved mayOpen p { p with target := none } :=
    peerMoved_of_events rfl rfl rfl rfl nofun
  unfold DirectPeer.notOpened
  split
  · exact closed
  · exact closed.report nofun nofun

theorem peerMoved_heard (read : Wire.FrameRead) : PeerMoved mayOpen p (p.heard read) := by
  have unmoved : PeerMoved mayOpen p p := peerMoved_of_events rfl rfl rfl rfl fun there => there
  unfold DirectPeer.heard
  split
  · exact unmoved
  · cases read with
    | frame f rest => exact unmoved.report nofun nofun
    | finished => exact unmoved.report nofun nofun
    | failed fault rest => exact unmoved.report nofun nofun

end

end Session

open Session

namespace SessionPair

/-- What a move feeds to the two handshakes. -/
def fedBy (p : SessionPair) : Move → List Feeding
  | .dialed => p.initiator.fed surroundings .dialed
  | .arrive role =>
    match (p.session (other role)).world.outgoing with
    | [] => []
    | item :: _ => (p.session role).fed surroundings item.stimulus
  | .report role =>
    match (p.peer role).events with
    | [] => []
    | event :: rest =>
      ((p.touchPeer role fun peer => { peer with events := rest }).session role).fed surroundings
        (.channel event)
  | .wake role stimulus => (p.session role).fed surroundings stimulus
  | _ => []

/-- What some moves feed to the two handshakes, oldest first. -/
def history (p : SessionPair) : List Move → List Feeding
  | [] => []
  | m :: rest => p.fedBy m ++ (p.move m).history rest

/-- Whether a move makes up nothing that the other end has not said. -/
def Move.IsProper : Move → Prop
  | .wake _ stimulus => stimulus.IsOutside
  | _ => True

/-! ## What single moves come to -/

section

attribute [local simp] move fedBy session other peer

variable {p : SessionPair} {item : StreamItem} {items : List StreamItem} {event : ChannelEvent}
  {events : List ChannelEvent}

theorem arrive_initiator_nil (out : p.responder.world.outgoing = []) :
    p.move (.arrive .initiator) = p ∧ p.fedBy (.arrive .initiator) = [] := by
  simp [out]

theorem arrive_initiator (out : p.responder.world.outgoing = item :: items) :
    p.move (.arrive .initiator) = { p with
        initiator := p.initiator.react surroundings item.stimulus
        responder := p.responder.withOutgoing items } ∧
      p.fedBy (.arrive .initiator) = p.initiator.fed surroundings item.stimulus := by
  simp only [move, fedBy, session, other, out, and_true]
  cases item <;> rfl

theorem arrive_responder_nil (out : p.initiator.world.outgoing = []) :
    p.move (.arrive .responder) = p ∧ p.fedBy (.arrive .responder) = [] := by
  simp [out]

theorem arrive_responder (out : p.initiator.world.outgoing = item :: items) :
    p.move (.arrive .responder) = { p with
        initiator := p.initiator.withOutgoing items
        responder := p.responder.react surroundings item.stimulus } ∧
      p.fedBy (.arrive .responder) = p.responder.fed surroundings item.stimulus := by
  simp only [move, fedBy, session, other, out, and_true]
  cases item <;> rfl

theorem report_initiator_nil (reports : p.initiator.world.peer.events = []) :
    p.move (.report .initiator) = p ∧ p.fedBy (.report .initiator) = [] := by
  simp [reports]

theorem report_initiator (reports : p.initiator.world.peer.events = event :: events) :
    p.move (.report .initiator) = { p with
        initiator := (p.initiator.withEvents events).react surroundings (.channel event) } ∧
      p.fedBy (.report .initiator) =
        (p.initiator.withEvents events).fed surroundings (.channel event) := by
  simp only [move, fedBy, peer, session, reports]
  exact ⟨rfl, rfl⟩

theorem report_responder_nil (reports : p.responder.world.peer.events = []) :
    p.move (.report .responder) = p ∧ p.fedBy (.report .responder) = [] := by
  simp [reports]

theorem report_responder (reports : p.responder.world.peer.events = event :: events) :
    p.move (.report .responder) = { p with
        responder := (p.responder.withEvents events).react surroundings (.channel event) } ∧
      p.fedBy (.report .responder) =
        (p.responder.withEvents events).fed surroundings (.channel event) := by
  simp only [move, fedBy, peer, session, reports]
  exact ⟨rfl, rfl⟩

theorem knock_nowhere (nowhere : p.initiator.world.peer.target = none) : p.move .knock = p := by
  simp [nowhere]

theorem knock_heard {place : String × UInt16} (target : p.initiator.world.peer.target = some place)
    (listens : p.isListening place.2 = true) :
    p.move .knock = { p with
      initiator := p.initiator.withPeer p.initiator.world.peer.opened, knocking := true } := by
  simp only [move, peer, session, target, listens, if_true]
  rfl

theorem knock_refused {place : String × UInt16}
    (target : p.initiator.world.peer.target = some place) (refused : p.isListening place.2 = false) :
    p.move .knock = { p with
      initiator := p.initiator.withPeer (p.initiator.world.peer.notOpened refusal) } := by
  simp only [move, peer, session, target, refused]
  rfl

theorem letIn_can (can : p.canLetIn = true) :
    p.move .letIn = { p with
      responder := p.responder.withPeer p.responder.world.peer.opened, knocking := false } := by
  simp only [move, can, if_true]
  rfl

theorem letIn_cannot (cannot : p.canLetIn = false) : p.move .letIn = p := by
  simp [cannot]

end

/-! ## The invariant -/

/-- What is known of two joined sessions, from how far offer and answer have come. -/
structure Agreeing (t : Terms) (offer answer : Transit) (p : SessionPair) : Prop where
  near : Near t offer answer p.initiator.standing
  far : Far t answer p.responder.standing
  ordered : answer ≠ .unsent → offer = .gone
  knocking : p.knocking = true → answer ≠ .unsent

variable {t : Terms} {offer answer : Transit} {p : SessionPair}

/-- The responder answers only what has arrived. -/
theorem Agreeing.unsent (h : Agreeing t offer answer p) (open_ : offer ≠ .gone) :
    answer = .unsent :=
  Decidable.byContradiction fun sent => open_ (h.ordered sent)

/-- What a move comes to: the pair is agreeing again, and no input was a violation. -/
def Agrees (t : Terms) (p : SessionPair) (m : Move) : Prop :=
  (∃ offer answer, Agreeing t offer answer (p.move m)) ∧ AllAccepted (p.fedBy m)

theorem agrees_dialed (h : Agreeing t offer answer p) : Agrees t p .dialed := by
  by_cases dialing : p.initiator.phase = .dialing
  · obtain ⟨near, accepted⟩ := near_dialed h.near h.ordered dialing
    have unsent := h.unsent (by rw [h.near.stands.unsent dialing]; nofun)
    exact ⟨⟨.flying, answer, near, h.far, fun sent => absurd unsent sent, h.knocking⟩, accepted⟩
  · have outcome := h.near.stands.poised.dialed dialing
    exact ⟨⟨offer, answer, h.near.keptOrFell outcome, h.far, h.ordered, h.knocking⟩,
      outcome.accepted⟩

/-- The initiator receives what comes next from the responder. -/
theorem agrees_arrive_initiator (h : Agreeing t offer answer p) :
    Agrees t p (.arrive .initiator) := by
  cases out : p.responder.world.outgoing with
  | nil =>
    obtain ⟨moved, unfed⟩ := arrive_initiator_nil out
    exact ⟨⟨offer, answer, moved.symm ▸ h⟩, unfed ▸ allAccepted_nil⟩
  | cons item rest =>
    obtain ⟨moved, feeds⟩ := arrive_initiator out
    unfold Agrees
    rw [moved, feeds]
    have outgoing := h.far.outgoing
    rw [show p.responder.standing.outgoing = item :: rest from out] at outgoing
    by_cases flying : answer = .flying
    · subst flying
      obtain ⟨rfl, carries⟩ := outgoing.pop_front
      obtain ⟨near, accepted⟩ := near_answer h.near (h.ordered nofun)
      exact ⟨⟨offer, .gone, near, h.far.answer_arrived carries, fun _ => h.ordered nofun,
        fun _ => nofun⟩, accepted⟩
    · rw [if_neg flying] at outgoing
      obtain ⟨allowed, carries⟩ := outgoing.pop
      have far := h.far.arrived flying carries fun quiet => by
        rw [out] at quiet
        cases quiet
      rcases allowed with farewell | ⟨rfl, sent⟩
      · have outcome := h.near.stands.poised.farewell farewell
        exact ⟨⟨offer, answer, h.near.keptOrFell outcome, far, h.ordered, h.knocking⟩,
          outcome.accepted⟩
      · obtain rfl : answer = .gone := by
          cases answer with
          | unsent => exact absurd rfl sent
          | flying => exact absurd rfl flying
          | gone => rfl
        obtain ⟨near, accepted⟩ := near_candidate h.near (h.ordered sent) t.place
        exact ⟨⟨offer, .gone, near, far, h.ordered, h.knocking⟩, accepted⟩

/-- The responder receives what comes next from the initiator. -/
theorem agrees_arrive_responder (h : Agreeing t offer answer p) :
    Agrees t p (.arrive .responder) := by
  cases out : p.initiator.world.outgoing with
  | nil =>
    obtain ⟨moved, unfed⟩ := arrive_responder_nil out
    exact ⟨⟨offer, answer, moved.symm ▸ h⟩, unfed ▸ allAccepted_nil⟩
  | cons item rest =>
    obtain ⟨moved, feeds⟩ := arrive_responder out
    unfold Agrees
    rw [moved, feeds]
    have outgoing := h.near.outgoing
    rw [show p.initiator.standing.outgoing = item :: rest from out] at outgoing
    by_cases flying : offer = .flying
    · subst flying
      obtain ⟨rfl, carries⟩ := outgoing.pop_front
      obtain rfl := h.unsent nofun
      obtain ⟨⟨answer, open_, far⟩, accepted⟩ := far_offer h.far
      exact ⟨⟨.gone, answer, h.near.offer_arrived carries open_, far, fun _ => rfl,
        fun knocks => absurd rfl (h.knocking knocks)⟩, accepted⟩
    · rw [if_neg flying] at outgoing
      obtain ⟨farewell, carries⟩ := outgoing.pop
      have near := h.near.arrived flying carries fun quiet => by
        rw [out] at quiet
        cases quiet
      have outcome := h.far.stands.poised.farewell farewell
      exact ⟨⟨offer, answer, near, h.far.keptOrFell outcome, h.ordered, h.knocking⟩,
        outcome.accepted⟩

/-- The initiator's channel reports. -/
theorem agrees_report_initiator (h : Agreeing t offer answer p) :
    Agrees t p (.report .initiator) := by
  cases reports : p.initiator.world.peer.events with
  | nil =>
    obtain ⟨moved, unfed⟩ := report_initiator_nil reports
    exact ⟨⟨offer, answer, moved.symm ▸ h⟩, unfed ▸ allAccepted_nil⟩
  | cons event rest =>
    let s := p.initiator.withEvents rest
    obtain ⟨moved, feeds⟩ := report_initiator reports
    unfold Agrees
    rw [moved, feeds]
    have near : Near t offer answer s.standing := h.near.moved (peerMoved_popped reports)
    have present : event ∈ p.initiator.world.peer.events := reports ▸ List.mem_cons_self
    have keeps : KeptOrFell s (.channel event) → _ := fun outcome =>
      (⟨⟨offer, answer, near.keptOrFell outcome, h.far, h.ordered, h.knocking⟩,
        outcome.accepted⟩ :
        (∃ offer answer, Agreeing t offer answer
          { p with initiator := s.react surroundings (.channel event) }) ∧
          AllAccepted (s.fed surroundings (.channel event)))
    cases event with
    | localCandidate c => exact absurd present (h.near.silent c)
    | opened =>
      obtain rfl := h.near.dialled (.inr present)
      obtain ⟨near, accepted⟩ := near_opened near (h.ordered nofun)
      exact ⟨⟨offer, .gone, near, h.far, h.ordered, h.knocking⟩, accepted⟩
    | frame f => exact keeps (near.stands.poised.react_frame f).1
    | closed => exact keeps (near.stands.poised.outside trivial)
    | failed reason => exact keeps (near.stands.poised.outside trivial)

/-- The responder's channel reports. -/
theorem agrees_report_responder (h : Agreeing t offer answer p) :
    Agrees t p (.report .responder) := by
  cases reports : p.responder.world.peer.events with
  | nil =>
    obtain ⟨moved, unfed⟩ := report_responder_nil reports
    exact ⟨⟨offer, answer, moved.symm ▸ h⟩, unfed ▸ allAccepted_nil⟩
  | cons event rest =>
    let s := p.responder.withEvents rest
    obtain ⟨moved, feeds⟩ := report_responder reports
    unfold Agrees
    rw [moved, feeds]
    have far : Far t answer s.standing := h.far.moved (peerMoved_popped reports)
    have present : event ∈ p.responder.world.peer.events := reports ▸ List.mem_cons_self
    have goes : Far t answer (s.react surroundings (.channel event)).standing ∧
        AllAccepted (s.fed surroundings (.channel event)) := by
      cases event with
      | localCandidate c =>
        obtain ⟨rfl, sent⟩ := h.far.named c present
        exact far_place far sent
      | opened => exact far_opened far (h.far.opened present)
      | frame f =>
        obtain ⟨outcome, -⟩ := far.stands.poised.react_frame f
        exact ⟨far.keptOrFell outcome, outcome.accepted⟩
      | closed =>
        have outcome : KeptOrFell s (.channel .closed) := far.stands.poised.outside trivial
        exact ⟨far.keptOrFell outcome, outcome.accepted⟩
      | failed reason =>
        have outcome : KeptOrFell s (.channel (.failed reason)) := far.stands.poised.outside trivial
        exact ⟨far.keptOrFell outcome, outcome.accepted⟩
    exact ⟨⟨offer, answer, h.near, goes.1, h.ordered, h.knocking⟩, goes.2⟩

/-- The initiator's connection reaches the responder's port, or nobody. -/
theorem agrees_knock (h : Agreeing t offer answer p) : Agrees t p .knock := by
  refine ⟨?_, allAccepted_nil⟩
  cases target : p.initiator.world.peer.target with
  | none =>
    exact ⟨offer, answer, (knock_nowhere target).symm ▸ h⟩
  | some place =>
    have gone : answer = .gone := h.near.dialled (.inl (by
      show p.initiator.world.peer.target.isSome = true
      rw [target]
      rfl))
    cases listens : p.isListening place.2 with
    | true =>
      rw [knock_heard target listens]
      refine ⟨offer, answer, h.near.moved (peerMoved_opened gone), h.far, h.ordered, fun _ => ?_⟩
      rw [gone]
      nofun
    | false =>
      rw [knock_refused target listens]
      exact ⟨offer, answer, h.near.moved (peerMoved_notOpened refusal), h.far, h.ordered, h.knocking⟩

/-- The responder accepts the connection, if one waits. -/
theorem agrees_letIn (h : Agreeing t offer answer p) : Agrees t p .letIn := by
  refine ⟨?_, allAccepted_nil⟩
  cases can : p.canLetIn with
  | true =>
    have sent := h.knocking (Bool.and_eq_true_iff.1 can).1
    rw [letIn_can can]
    exact ⟨offer, answer, h.near, h.far.moved (peerMoved_opened sent), h.ordered, nofun⟩
  | false => exact ⟨offer, answer, (letIn_cannot can).symm ▸ h⟩

/-- An end reads from the connection. -/
theorem agrees_read (h : Agreeing t offer answer p) (role : Role) : Agrees t p (.read role) := by
  refine ⟨?_, allAccepted_nil⟩
  cases found : p.readable? role with
  | none =>
    have moved : p.move (.read role) = p := by
      simp only [move, found]
    exact ⟨offer, answer, moved.symm ▸ h⟩
  | some read =>
    have outcome : ∀ bytes, Agreeing t offer answer
        ((p.touchPeer (other role) fun peer => { peer with written := bytes }).touchPeer role
          fun peer => peer.heard read) := by
      intro bytes
      cases role with
      | initiator => exact ⟨h.near.moved (peerMoved_heard read), h.far, h.ordered, h.knocking⟩
      | responder => exact ⟨h.near, h.far.moved (peerMoved_heard read), h.ordered, h.knocking⟩
    have agreeing := outcome (restOf read)
    refine ⟨offer, answer, ?_⟩
    simp only [move, found]
    cases read with
    | frame f rest => exact agreeing
    | finished => exact ⟨agreeing.near, agreeing.far, agreeing.ordered, agreeing.knocking⟩
    | failed fault rest => exact ⟨agreeing.near, agreeing.far, agreeing.ordered, agreeing.knocking⟩

/-- The outside does something to an end. -/
theorem agrees_wake (h : Agreeing t offer answer p) (role : Role) {stimulus : Stimulus}
    (outside : stimulus.IsOutside) : Agrees t p (.wake role stimulus) := by
  cases role with
  | initiator =>
    have outcome : KeptOrFell p.initiator stimulus := h.near.stands.poised.outside outside
    exact ⟨⟨offer, answer, h.near.keptOrFell outcome, h.far, h.ordered, h.knocking⟩,
      outcome.accepted⟩
  | responder =>
    have outcome : KeptOrFell p.responder stimulus := h.far.stands.poised.outside outside
    exact ⟨⟨offer, answer, h.near, h.far.keptOrFell outcome, h.ordered, h.knocking⟩,
      outcome.accepted⟩

/-- **Every proper move keeps what is known, and feeds no violation.** -/
theorem agrees_move (h : Agreeing t offer answer p) {m : Move} (proper : m.IsProper) :
    Agrees t p m := by
  match m, proper with
  | .dialed, _ => exact agrees_dialed h
  | .arrive .initiator, _ => exact agrees_arrive_initiator h
  | .arrive .responder, _ => exact agrees_arrive_responder h
  | .report .initiator, _ => exact agrees_report_initiator h
  | .report .responder, _ => exact agrees_report_responder h
  | .knock, _ => exact agrees_knock h
  | .letIn, _ => exact agrees_letIn h
  | .read role, _ => exact agrees_read h role
  | .wake role stimulus, outside => exact agrees_wake h role outside

/-- So does every run of proper moves. -/
theorem agreeing_run (h : Agreeing t offer answer p) {moves : List Move}
    (proper : ∀ m ∈ moves, m.IsProper) :
    (∃ offer answer, Agreeing t offer answer (p.run moves)) ∧ AllAccepted (p.history moves) := by
  induction moves generalizing offer answer p with
  | nil => exact ⟨⟨offer, answer, h⟩, allAccepted_nil⟩
  | cons m rest ih =>
    obtain ⟨⟨offer', answer', next⟩, first⟩ := agrees_move h (proper m List.mem_cons_self)
    obtain ⟨last, later⟩ := ih next fun m' there => proper m' (List.mem_cons_of_mem m there)
    refine ⟨last, fun f there => ?_⟩
    exact (List.mem_append.1 there).elim (first f) (later f)

end SessionPair

namespace Terms

/-- The responder before it has worked through the beginning of its stream. -/
def responder (t : Terms) : Session JoinedEnd :=
  let world := surroundings.openChannel .responder (.new .responder t.remoteId t.remoteHost t.port)
  (fresh .responder t.far world .running).push .streamOpened

/-- What the two handshakes are fed before the first move. -/
def opening (t : Terms) : List Feeding :=
  ⟨.new .initiator t.near.candidates, .start⟩ :: ⟨.new .responder t.far.candidates, .start⟩ ::
    pumped surroundings t.responder.due t.responder

theorem allAccepted_opening (t : Terms) : AllAccepted t.opening :=
  allAccepted_cons ⟨_, rfl⟩ (allAccepted_cons ⟨_, rfl⟩ (allAccepted_singleton ⟨_, rfl⟩))

/-- Two sessions that begin have said nothing to each other. -/
theorem agreeing_begin (t : Terms) : SessionPair.Agreeing t .unsent .unsent t.begin where
  near :=
    ⟨.dialing rfl rfl ⟨t.near.candidates, rfl⟩ rfl rfl rfl, rfl, carries_front [] _, nofun,
      fun there => there.elim nofun nofun⟩
  far :=
    ⟨.awaiting rfl rfl rfl ⟨t.far.candidates, rfl⟩ rfl rfl rfl rfl rfl, rfl, carries_front [] _,
      nofun, nofun⟩
  ordered sent := absurd rfl sent
  knocking := nofun

end Terms

end TopicMesh
