import TopicMesh.Proofs.Session.Joined

/-!
# Two joined sessions agree

What two joined sessions have said to each other is known from two things: how far the
offer and how far the answer has come (`Transit`).  `Near` says where the initiator can
stand then and what may be on its way from it, `Far` says it of the responder, and
`Joined` puts the two together.

* No end loses its own description, not even by ending; so what one end took over
  from the other stays what the other said.
* The candidate follows the answer on the stream, so the initiator dials only after it
  has the answer, and the channel opens at either end only when that end knows both
  descriptions.

Every move keeps this, whatever the outside does (`joined_move`), and no input that it
leads to is a violation.
-/

namespace TopicMesh

/-- What two joined sessions are set up with. -/
structure Terms where
  near : SessionLimits
  far : SessionLimits
  sessionId : String
  remoteId : String
  host : String
  remoteHost : String
  port : UInt16

namespace Terms

/-- The two sessions before their first move. -/
def begin (t : Terms) : SessionPair :=
  .begin t.near t.far t.sessionId t.remoteId t.host t.remoteHost t.port

/-- The initiator's description. -/
def offer (t : Terms) : String :=
  (DirectPeer.new .initiator t.sessionId t.host).description "active"

/-- The responder's description. -/
def answer (t : Terms) : String :=
  (DirectPeer.new .responder t.remoteId t.remoteHost).description "passive"

/-- The candidate that names the responder's port. -/
def place (t : Terms) : Candidate :=
  (DirectPeer.new .responder t.remoteId t.remoteHost).candidate t.port

end Terms

namespace Session

open JoinedEnd

/-- What matters of a joined session here: all but what it wrote to the channel and what
it keeps for itself. -/
structure Standing where
  phase : Phase
  machine : Handshake
  inputs : List Handshake.Input
  peer : DirectPeer
  port : UInt16
  outgoing : List StreamItem

/-- Where a session stands. -/
def standing (s : Session JoinedEnd) : Standing :=
  ⟨s.phase, s.machine, s.inputs, { s.world.peer with written := [] }, s.world.port,
    s.world.outgoing⟩

theorem Kept.standing {s s' : Session JoinedEnd} (kept : Kept s s') : s'.standing = s.standing := by
  obtain ⟨bytes, world, -⟩ := kept.world
  unfold Session.standing
  rw [kept.phase, kept.machine, kept.inputs, world]

/-- How far a signal has come. -/
inductive Transit
  | unsent
  /-- On the stream. -/
  | flying
  /-- Off the stream, whether or not anybody took it. -/
  | gone
deriving DecidableEq

/-- Whether a stream holds some items and after them only such as are allowed. -/
def Carries (front : List StreamItem) (allowed : StreamItem → Prop) (items : List StreamItem) :
    Prop :=
  ∃ rest, items = front ++ rest ∧ ∀ item ∈ rest, allowed item

section Carries

variable {front items : List StreamItem} {allowed : StreamItem → Prop} {item : StreamItem}

theorem Carries.append {tail : List StreamItem} (h : Carries front allowed items)
    (tail_allowed : ∀ item ∈ tail, allowed item) : Carries front allowed (items ++ tail) := by
  obtain ⟨rest, rfl, all⟩ := h
  refine ⟨rest ++ tail, List.append_assoc .., fun item there => ?_⟩
  exact (List.mem_append.1 there).elim (all item) (tail_allowed item)

theorem Carries.mono {allowed' : StreamItem → Prop} (h : Carries front allowed items)
    (weaker : ∀ item, allowed item → allowed' item) : Carries front allowed' items := by
  obtain ⟨rest, is, all⟩ := h
  exact ⟨rest, is, fun item there => weaker item (all item there)⟩

theorem Carries.pop (h : Carries [] allowed (item :: items)) :
    allowed item ∧ Carries [] allowed items := by
  obtain ⟨rest, rfl, all⟩ := h
  exact ⟨all item List.mem_cons_self, items, rfl,
    fun other there => all other (List.mem_cons_of_mem item there)⟩

theorem Carries.pop_front {first : StreamItem} (h : Carries [first] allowed (item :: items)) :
    item = first ∧ Carries [] allowed items := by
  obtain ⟨rest, is, all⟩ := h
  obtain ⟨rfl, rfl⟩ := List.cons.inj is
  exact ⟨rfl, _, rfl, all⟩

theorem carries_front (front : List StreamItem) (allowed : StreamItem → Prop) :
    Carries front allowed front :=
  ⟨[], (List.append_nil front).symm, nofun⟩

end Carries

/-! ## The initiator -/

/-- Where the initiator can stand. -/
inductive NearStands (t : Terms) (offer answer : Transit) (x : Standing) : Prop
  | ended (phase : x.phase = .ended) (stage : x.machine.stage = .closed)
  | dialing (phase : x.phase = .dialing) (unsent : offer = .unsent)
      (machine : ∃ limit,
        x.machine = ⟨.initiator, .connecting, false, false, none, none, [], limit⟩)
      (sessionId : x.peer.sessionId = t.sessionId) (host : x.peer.host = t.host)
      (outgoing : x.outgoing = [])
  | offered (phase : x.phase = .running) (settled : x.inputs = []) (sent : offer ≠ .unsent)
      (open_ : answer ≠ .gone) (role : x.machine.role = .initiator)
      (stage : x.machine.stage = .offerSent) (waiting : x.machine.waiting = [])
      (peer_role : x.peer.role = .initiator)
  | agreed (phase : x.phase = .running) (settled : x.inputs = []) (arrived : answer = .gone)
      (stage : x.machine.stage = .answerExchanged ∨ x.machine.stage = .ready)
      (theirs : x.machine.remoteDescription = some t.answer)
      (peer_role : x.peer.role = .initiator)

/-- What is known of the initiator. -/
structure Near (t : Terms) (offer answer : Transit) (x : Standing) : Prop where
  stands : NearStands t offer answer x
  mine : x.machine.localDescription = if offer = .unsent then none else some t.offer
  outgoing : Carries (if offer = .flying then [.of (.offer t.offer)] else [])
    StreamItem.IsFarewell x.outgoing
  /-- Only the responder names places. -/
  silent : ∀ c, ChannelEvent.localCandidate c ∉ x.peer.events
  dialled : x.peer.target.isSome = true ∨ ChannelEvent.opened ∈ x.peer.events → answer = .gone

/-! ## The responder -/

/-- Where the responder can stand. -/
inductive FarStands (t : Terms) (answer : Transit) (x : Standing) : Prop
  | ended (phase : x.phase = .ended) (stage : x.machine.stage = .closed)
  | awaiting (phase : x.phase = .running) (settled : x.inputs = []) (unsent : answer = .unsent)
      (machine : ∃ limit,
        x.machine = ⟨.responder, .awaitingOffer, true, false, none, none, [], limit⟩)
      (peer_role : x.peer.role = .responder) (sessionId : x.peer.sessionId = t.remoteId)
      (host : x.peer.host = t.remoteHost) (port : x.port = t.port) (outgoing : x.outgoing = [])
  | agreed (phase : x.phase = .running) (settled : x.inputs = []) (sent : answer ≠ .unsent)
      (stage : x.machine.stage = .answerExchanged ∨ x.machine.stage = .ready)
      (theirs : x.machine.remoteDescription = some t.offer)

/-- What may follow the answer on the stream. -/
def AfterAnswer (t : Terms) (answer : Transit) (item : StreamItem) : Prop :=
  item.IsFarewell ∨ (item = .of (.candidate t.place) ∧ answer ≠ .unsent)

/-- What is known of the responder. -/
structure Far (t : Terms) (answer : Transit) (x : Standing) : Prop where
  stands : FarStands t answer x
  mine : x.machine.localDescription = if answer = .unsent then none else some t.answer
  outgoing : Carries (if answer = .flying then [.of (.answer t.answer)] else [])
    (AfterAnswer t answer) x.outgoing
  named : ∀ c, ChannelEvent.localCandidate c ∈ x.peer.events → c = t.place ∧ answer ≠ .unsent
  opened : ChannelEvent.opened ∈ x.peer.events → answer ≠ .unsent

/-! ## Moves that leave an end where it stands -/

section

variable {t : Terms} {offer answer : Transit} {x x' : Standing} {s s' : Session JoinedEnd}

theorem NearStands.congr (h : NearStands t offer answer x) (phase : x'.phase = x.phase)
    (machine : x'.machine = x.machine) (inputs : x'.inputs = x.inputs)
    (role : x'.peer.role = x.peer.role) (sessionId : x'.peer.sessionId = x.peer.sessionId)
    (host : x'.peer.host = x.peer.host) (outgoing : x.outgoing = [] → x'.outgoing = []) :
    NearStands t offer answer x' := by
  cases h with
  | ended stopped stage => exact .ended (phase.trans stopped) (machine ▸ stage)
  | dialing dials unsent fresh isId isHost quiet =>
    exact .dialing (phase.trans dials) unsent (machine ▸ fresh) (sessionId.trans isId)
      (host.trans isHost) (outgoing quiet)
  | offered runs settled sent open_ isRole stage waiting isPeer =>
    exact .offered (phase.trans runs) (inputs.trans settled) sent open_ (machine ▸ isRole)
      (machine ▸ stage) (machine ▸ waiting) (role.trans isPeer)
  | agreed runs settled arrived stage theirs isPeer =>
    exact .agreed (phase.trans runs) (inputs.trans settled) arrived (machine ▸ stage)
      (machine ▸ theirs) (role.trans isPeer)

theorem FarStands.congr (h : FarStands t answer x) (phase : x'.phase = x.phase)
    (machine : x'.machine = x.machine) (inputs : x'.inputs = x.inputs)
    (role : x'.peer.role = x.peer.role) (sessionId : x'.peer.sessionId = x.peer.sessionId)
    (host : x'.peer.host = x.peer.host) (port : x'.port = x.port)
    (outgoing : x.outgoing = [] → x'.outgoing = []) : FarStands t answer x' := by
  cases h with
  | ended stopped stage => exact .ended (phase.trans stopped) (machine ▸ stage)
  | awaiting runs settled unsent fresh isPeer isId isHost isPort quiet =>
    exact .awaiting (phase.trans runs) (inputs.trans settled) unsent (machine ▸ fresh)
      (role.trans isPeer) (sessionId.trans isId) (host.trans isHost) (port.trans isPort)
      (outgoing quiet)
  | agreed runs settled sent stage theirs =>
    exact .agreed (phase.trans runs) (inputs.trans settled) sent (machine ▸ stage)
      (machine ▸ theirs)

theorem Near.keptOrFell (near : Near t offer answer s.standing) {stimulus : Stimulus}
    (outcome : KeptOrFell s stimulus) :
    Near t offer answer (s.react surroundings stimulus).standing := by
  rcases outcome.outcome with kept | ⟨fell, -⟩
  · exact kept.standing ▸ near
  · obtain ⟨tail, outgoing, farewell⟩ := fell.outgoing
    refine ⟨.ended fell.ended fell.closed, fell.mine.trans near.mine, ?_, ?_, ?_⟩
    · show Carries _ _ (s.react surroundings stimulus).world.outgoing
      rw [outgoing]
      exact near.outgoing.append farewell
    · show ∀ c, ChannelEvent.localCandidate c ∉ (s.react surroundings stimulus).world.peer.events
      rw [fell.events]
      exact near.silent
    · show (s.react surroundings stimulus).world.peer.target.isSome = true ∨
        ChannelEvent.opened ∈ (s.react surroundings stimulus).world.peer.events → _
      rw [fell.events]
      exact fun there => near.dialled (there.imp_left fell.target)

theorem Far.keptOrFell (far : Far t answer s.standing) {stimulus : Stimulus}
    (outcome : KeptOrFell s stimulus) :
    Far t answer (s.react surroundings stimulus).standing := by
  rcases outcome.outcome with kept | ⟨fell, -⟩
  · exact kept.standing ▸ far
  · obtain ⟨tail, outgoing, farewell⟩ := fell.outgoing
    refine ⟨.ended fell.ended fell.closed, fell.mine.trans far.mine, ?_, ?_, ?_⟩
    · show Carries _ _ (s.react surroundings stimulus).world.outgoing
      rw [outgoing]
      exact far.outgoing.append fun item there => .inl (farewell item there)
    · show ∀ c, ChannelEvent.localCandidate c ∈ (s.react surroundings stimulus).world.peer.events → _
      rw [fell.events]
      exact far.named
    · show ChannelEvent.opened ∈ (s.react surroundings stimulus).world.peer.events → _
      rw [fell.events]
      exact far.opened

/-- What may happen to the channel of an end by itself: it reports news, and that it is
open only where it may open. -/
structure PeerMoved (mayOpen : Prop) (p p' : DirectPeer) : Prop where
  role : p'.role = p.role
  sessionId : p'.sessionId = p.sessionId
  host : p'.host = p.host
  candidates : ∀ c, ChannelEvent.localCandidate c ∈ p'.events → .localCandidate c ∈ p.events
  opened : ChannelEvent.opened ∈ p'.events → ChannelEvent.opened ∈ p.events ∨ mayOpen
  target : p'.target.isSome = true → p.target.isSome = true

/-- A session whose channel moved by itself. -/
def withPeer (s : Session JoinedEnd) (p : DirectPeer) : Session JoinedEnd :=
  { s with world := { s.world with peer := p } }

theorem Near.moved (near : Near t offer answer s.standing) {p : DirectPeer}
    (moved : PeerMoved (answer = .gone) s.world.peer p) :
    Near t offer answer (s.withPeer p).standing where
  stands := near.stands.congr rfl rfl rfl moved.role moved.sessionId moved.host fun quiet => quiet
  mine := near.mine
  outgoing := near.outgoing
  silent c there := near.silent c (moved.candidates c there)
  dialled := by
    rintro (there | there)
    · exact near.dialled (.inl (moved.target there))
    · exact (moved.opened there).elim (fun before => near.dialled (.inr before)) fun may => may

theorem Far.moved (far : Far t answer s.standing) {p : DirectPeer}
    (moved : PeerMoved (answer ≠ .unsent) s.world.peer p) :
    Far t answer (s.withPeer p).standing where
  stands := far.stands.congr rfl rfl rfl moved.role moved.sessionId moved.host rfl
    fun quiet => quiet
  mine := far.mine
  outgoing := far.outgoing
  named c there := far.named c (moved.candidates c there)
  opened there := (moved.opened there).elim far.opened fun may => may

/-- A session after some events of its channel have been taken. -/
def withEvents (s : Session JoinedEnd) (rest : List ChannelEvent) : Session JoinedEnd :=
  s.withPeer { s.world.peer with events := rest }

/-- A session after the oldest item on its stream has arrived at the other end. -/
def withOutgoing (s : Session JoinedEnd) (rest : List StreamItem) : Session JoinedEnd :=
  { s with world := { s.world with outgoing := rest } }

/-- The initiator after the offer has arrived. -/
theorem Near.offer_arrived (near : Near t .flying .unsent s.standing) {rest : List StreamItem}
    (carries : Carries [] StreamItem.IsFarewell rest) (open_ : answer ≠ .gone) :
    Near t .gone answer (s.withOutgoing rest).standing := by
  have stands : NearStands t .gone answer (s.withOutgoing rest).standing := by
    cases near.stands with
    | ended stopped stage => exact .ended stopped stage
    | dialing _ unsent => exact absurd unsent nofun
    | offered runs settled _ _ role stage waiting peer_role =>
      exact .offered runs settled nofun open_ role stage waiting peer_role
    | agreed _ _ arrived => exact absurd arrived nofun
  exact ⟨stands, near.mine, carries, near.silent, fun there => absurd (near.dialled there) nofun⟩

/-- The initiator after another item than the offer has arrived. -/
theorem Near.arrived (near : Near t offer answer s.standing) (apart : offer ≠ .flying)
    {rest : List StreamItem} (carries : Carries [] StreamItem.IsFarewell rest)
    (quiet : s.world.outgoing = [] → rest = []) :
    Near t offer answer (s.withOutgoing rest).standing :=
  ⟨near.stands.congr rfl rfl rfl rfl rfl rfl quiet, near.mine, by rw [if_neg apart]; exact carries,
    near.silent, near.dialled⟩

/-- The responder after the answer has arrived. -/
theorem Far.answer_arrived (far : Far t .flying s.standing) {rest : List StreamItem}
    (carries : Carries [] (AfterAnswer t .flying) rest) :
    Far t .gone (s.withOutgoing rest).standing := by
  have stands : FarStands t .gone (s.withOutgoing rest).standing := by
    cases far.stands with
    | ended stopped stage => exact .ended stopped stage
    | awaiting _ _ unsent => exact absurd unsent nofun
    | agreed runs settled _ stage theirs => exact .agreed runs settled nofun stage theirs
  refine ⟨stands, far.mine, ?_, fun c there => ⟨(far.named c there).1, nofun⟩, fun _ => nofun⟩
  exact carries.mono fun item allowed => allowed.imp_right fun place => ⟨place.1, nofun⟩

/-- The responder after another item than the answer has arrived. -/
theorem Far.arrived (far : Far t answer s.standing) (apart : answer ≠ .flying)
    {rest : List StreamItem} (carries : Carries [] (AfterAnswer t answer) rest)
    (quiet : s.world.outgoing = [] → rest = []) : Far t answer (s.withOutgoing rest).standing :=
  ⟨far.stands.congr rfl rfl rfl rfl rfl rfl rfl quiet, far.mine,
    by rw [if_neg apart]; exact carries, far.named, far.opened⟩

theorem NearStands.unsent (h : NearStands t offer answer x) (dialing : x.phase = .dialing) :
    offer = .unsent := by
  cases h with
  | ended stopped _ => exact absurd (dialing.symm.trans stopped) nofun
  | dialing _ unsent => exact unsent
  | offered runs => exact absurd (dialing.symm.trans runs) nofun
  | agreed runs => exact absurd (dialing.symm.trans runs) nofun

/-- An initiator that neither dials nor has ended runs. -/
theorem NearStands.running (h : NearStands t offer answer x) (alive : x.phase ≠ .ended)
    (dialed : x.phase ≠ .dialing) : x.phase = .running ∧ x.inputs = [] := by
  cases h with
  | ended stopped _ => exact absurd stopped alive
  | dialing dials _ => exact absurd dials dialed
  | offered runs settled => exact ⟨runs, settled⟩
  | agreed runs settled => exact ⟨runs, settled⟩

/-! ## Ends that have worked through everything -/

theorem not_closed_of_agreed {stage : Stage} (h : stage = .answerExchanged ∨ stage = .ready) :
    stage ≠ .closed := by
  rcases h with rfl | rfl <;> nofun

theorem NearStands.poised (h : NearStands t offer answer s.standing) : s.Poised := by
  cases h with
  | ended stopped _ => exact .ended stopped
  | dialing dials _ fresh =>
    obtain ⟨limit, machine⟩ := fresh
    exact .dialing dials (congrArg Handshake.stage machine)
  | offered runs settled _ _ _ stage =>
    have stage : s.machine.stage = .offerSent := stage
    exact .running runs settled (by rw [stage]; nofun)
  | agreed runs settled _ stage => exact .running runs settled (not_closed_of_agreed stage)

theorem FarStands.poised (h : FarStands t answer s.standing) : s.Poised := by
  cases h with
  | ended stopped _ => exact .ended stopped
  | awaiting runs settled _ fresh =>
    obtain ⟨limit, machine⟩ := fresh
    have stage : s.machine.stage = .awaitingOffer := congrArg Handshake.stage machine
    exact .running runs settled (by rw [stage]; nofun)
  | agreed runs settled _ stage => exact .running runs settled (not_closed_of_agreed stage)

/-! ## The initiator's part -/

theorem describes_offer (t : Terms) : Describes t.offer := describes_description _ _

theorem describes_answer (t : Terms) : Describes t.answer := describes_description _ _

/-- The initiator dials and offers, unless it has ended. -/
theorem near_dialed (near : Near t offer answer s.standing)
    (ordered : answer ≠ .unsent → offer = .gone) (dialing : s.phase = .dialing) :
    Near t .flying answer (s.react surroundings .dialed).standing ∧
      AllAccepted (s.fed surroundings .dialed) := by
  cases near.stands with
  | ended stopped _ => exact absurd (dialing.symm.trans stopped) nofun
  | offered runs => exact absurd (dialing.symm.trans runs) nofun
  | agreed runs => exact absurd (dialing.symm.trans runs) nofun
  | dialing _ unsent fresh sessionId host quiet =>
    obtain ⟨limit, machine⟩ := fresh
    have sessionId : s.world.peer.sessionId = t.sessionId := sessionId
    have host : s.world.peer.host = t.host := host
    have quiet : s.world.outgoing = [] := quiet
    have first : answer ≠ .gone := by
      rintro rfl
      exact absurd ((ordered nofun).symm.trans unsent) nofun
    obtain ⟨session, smooth⟩ := react_dialed dialing machine
    rw [session]
    refine ⟨⟨.offered rfl rfl nofun first rfl rfl rfl rfl, ?_, ?_, nofun, ?_⟩, smooth.accepted⟩
    · show some _ = some t.offer
      rw [sessionId, host]
      rfl
    · show Carries [.of (.offer t.offer)] _ (s.world.outgoing ++ [.of (.offer _)])
      rw [quiet, sessionId, host]
      exact carries_front _ _
    · rintro (h | h)
      · exact absurd h nofun
      · exact absurd h List.not_mem_nil

/-- The answer reaches the initiator. -/
theorem near_answer (near : Near t offer .flying s.standing) (gone : offer = .gone) :
    Near t offer .gone
        (s.react surroundings (StreamItem.of (.answer t.answer)).stimulus).standing ∧
      AllAccepted (s.fed surroundings (StreamItem.of (.answer t.answer)).stimulus) := by
  cases near.stands with
  | ended stopped stage =>
    obtain ⟨session, outcome⟩ := keptOrFell_ended stopped (StreamItem.of (.answer t.answer)).stimulus
    rw [session]
    exact ⟨⟨.ended stopped stage, near.mine, near.outgoing, near.silent, fun _ => rfl⟩,
      outcome.accepted⟩
  | dialing _ unsent => exact absurd (gone.symm.trans unsent) nofun
  | agreed _ _ arrived => exact absurd arrived nofun
  | offered runs settled sent _ role stage waiting peer_role =>
    obtain ⟨session, smooth⟩ := react_answer runs settled role stage waiting peer_role
      (describes_answer t)
    refine ⟨?_, smooth.accepted⟩
    rw [show s.react surroundings (StreamItem.of (.answer t.answer)).stimulus = _ from session]
    exact ⟨.agreed runs settled rfl (.inl rfl) rfl peer_role, near.mine, near.outgoing,
      near.silent, fun _ => rfl⟩

/-- A candidate reaches the initiator, after the answer. -/
theorem near_candidate (near : Near t offer .gone s.standing) (gone : offer = .gone) (c : Candidate) :
    Near t offer .gone (s.react surroundings (StreamItem.of (.candidate c)).stimulus).standing ∧
      AllAccepted (s.fed surroundings (StreamItem.of (.candidate c)).stimulus) := by
  cases near.stands with
  | ended stopped stage =>
    have outcome := (keptOrFell_ended stopped (StreamItem.of (.candidate c)).stimulus).2
    exact ⟨near.keptOrFell outcome, outcome.accepted⟩
  | dialing _ unsent => exact absurd (gone.symm.trans unsent) nofun
  | offered _ _ _ open_ => exact absurd rfl open_
  | agreed runs settled _ stage theirs peer_role =>
    obtain ⟨session, smooth⟩ := react_candidate (c := c) runs settled stage
    refine ⟨?_, smooth.accepted⟩
    rw [show s.react surroundings (StreamItem.of (.candidate c)).stimulus = _ from session]
    obtain ⟨dialing, target, world⟩ := applyCandidate_outcome c s.world
    rw [world]
    exact ⟨.agreed runs settled rfl stage theirs peer_role, near.mine, near.outgoing,
      near.silent, fun _ => rfl⟩

/-- The channel of the initiator opens. -/
theorem near_opened (near : Near t offer .gone s.standing) (gone : offer = .gone) :
    Near t offer .gone (s.react surroundings (.channel .opened)).standing ∧
      AllAccepted (s.fed surroundings (.channel .opened)) := by
  have again : KeptOrFell s (.channel .opened) →
      Near t offer .gone (s.react surroundings (.channel .opened)).standing ∧
        AllAccepted (s.fed surroundings (.channel .opened)) :=
    fun outcome => ⟨near.keptOrFell outcome, outcome.accepted⟩
  cases near.stands with
  | ended stopped _ => exact again (keptOrFell_ended stopped _).2
  | dialing _ unsent => exact absurd (gone.symm.trans unsent) nofun
  | offered _ _ _ open_ => exact absurd rfl open_
  | agreed runs settled _ stage theirs peer_role =>
    rcases stage with exchanged | ready
    · obtain ⟨kept | ⟨fell, -⟩, accepted⟩ := react_opened runs settled exchanged
      · refine ⟨?_, accepted⟩
        rw [kept.standing]
        exact ⟨.agreed runs settled rfl (.inr rfl) theirs peer_role, near.mine, near.outgoing,
          near.silent, near.dialled⟩
      · exact again ⟨.inr ⟨fell, nofun⟩, accepted⟩
    · exact again (keptOrFell_opened_again runs settled ready)

/-! ## The responder's part -/

/-- The offer reaches the responder: it answers, unless it has ended. -/
theorem far_offer (far : Far t .unsent s.standing) :
    (∃ answer, answer ≠ .gone ∧
      Far t answer (s.react surroundings (StreamItem.of (.offer t.offer)).stimulus).standing) ∧
      AllAccepted (s.fed surroundings (StreamItem.of (.offer t.offer)).stimulus) := by
  cases far.stands with
  | ended stopped stage =>
    have outcome := (keptOrFell_ended stopped (StreamItem.of (.offer t.offer)).stimulus).2
    exact ⟨⟨.unsent, nofun, far.keptOrFell outcome⟩, outcome.accepted⟩
  | agreed _ _ sent => exact absurd rfl sent
  | awaiting runs settled _ fresh peer_role sessionId host port quiet =>
    obtain ⟨limit, machine⟩ := fresh
    have sessionId : s.world.peer.sessionId = t.remoteId := sessionId
    have host : s.world.peer.host = t.remoteHost := host
    have port : s.world.port = t.port := port
    have quiet : s.world.outgoing = [] := quiet
    have answer : s.world.peer.description "passive" = t.answer := by
      unfold DirectPeer.description
      rw [sessionId, host]
      rfl
    have place : s.world.peer.candidate s.world.port = t.place := by
      unfold DirectPeer.candidate
      rw [host, port]
      rfl
    obtain ⟨session, smooth⟩ := react_offer runs settled machine peer_role (describes_offer t)
    refine ⟨⟨.flying, nofun, ?_⟩, smooth.accepted⟩
    rw [show s.react surroundings (StreamItem.of (.offer t.offer)).stimulus = _ from session]
    refine ⟨.agreed runs settled nofun (.inl rfl) rfl, ?_, ?_, ?_, fun _ => nofun⟩
    · exact congrArg some answer
    · show Carries [.of (.answer t.answer)] _ (s.world.outgoing ++ [.of (.answer _)])
      rw [quiet, answer]
      exact carries_front _ _
    · intro c there
      rcases List.mem_append.1 there with before | new
      · exact absurd (far.named c before).2 (fun sent => sent rfl)
      · rw [List.mem_singleton] at new
        exact ⟨(ChannelEvent.localCandidate.inj new).trans place, nofun⟩

/-- The responder's channel names its place: the responder passes it on, unless it has
ended. -/
theorem far_place (far : Far t answer s.standing) (sent : answer ≠ .unsent) :
    Far t answer (s.react surroundings (.channel (.localCandidate t.place))).standing ∧
      AllAccepted (s.fed surroundings (.channel (.localCandidate t.place))) := by
  cases far.stands with
  | ended stopped stage =>
    have outcome := (keptOrFell_ended stopped (.channel (.localCandidate t.place))).2
    exact ⟨far.keptOrFell outcome, outcome.accepted⟩
  | awaiting _ _ unsent => exact absurd unsent sent
  | agreed runs settled _ stage theirs =>
    have mine : s.machine.localDescription ≠ none := by
      rw [show s.machine.localDescription = _ from far.mine, if_neg sent]
      nofun
    obtain ⟨session, smooth⟩ :=
      react_localCandidate (c := t.place) runs settled (not_closed_of_agreed stage) mine
    rw [session]
    refine ⟨⟨.agreed runs settled sent stage theirs, far.mine, ?_, far.named, far.opened⟩, smooth.accepted⟩
    refine far.outgoing.append fun item there => .inr ⟨?_, sent⟩
    exact List.mem_singleton.1 there

/-- The responder's channel opens. -/
theorem far_opened (far : Far t answer s.standing) (sent : answer ≠ .unsent) :
    Far t answer (s.react surroundings (.channel .opened)).standing ∧
      AllAccepted (s.fed surroundings (.channel .opened)) := by
  have again : KeptOrFell s (.channel .opened) →
      Far t answer (s.react surroundings (.channel .opened)).standing ∧
        AllAccepted (s.fed surroundings (.channel .opened)) :=
    fun outcome => ⟨far.keptOrFell outcome, outcome.accepted⟩
  cases far.stands with
  | ended stopped _ => exact again (keptOrFell_ended stopped _).2
  | awaiting _ _ unsent => exact absurd unsent sent
  | agreed runs settled _ stage theirs =>
    rcases stage with exchanged | ready
    · obtain ⟨kept | ⟨fell, -⟩, accepted⟩ := react_opened runs settled exchanged
      · refine ⟨?_, accepted⟩
        rw [kept.standing]
        exact ⟨.agreed runs settled sent (.inr rfl) theirs, far.mine, far.outgoing, far.named,
          far.opened⟩
      · exact again ⟨.inr ⟨fell, nofun⟩, accepted⟩
    · exact again (keptOrFell_opened_again runs settled ready)

end

end Session

end TopicMesh
