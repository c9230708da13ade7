import TopicMesh.Proofs.Session.Interleaving
import TopicMesh.Proofs.Text.Reading

/-!
# Two joined sessions become ready

If nothing from the outside disturbs two joined sessions, neither ends, and what the
channel still has to do is always on its way (`Underway`):

* an offer that was made is on the stream or was answered;
* the responder's place is an event of its channel, or on the stream, or the
  initiator's channel has it and dials;
* a channel that dials has a target, which the responder listens on, or is open; and
  a channel that is open has an event that says so, or its session is ready.

So a pair at rest has both sessions ready (`ready_of_rest`).
-/

namespace TopicMesh

open JoinedEnd

namespace Session

/-- What goes on at an end that nothing disturbs. -/
structure Goes (x : Standing) : Prop where
  alive : x.phase ≠ .ended
  speaks : ∀ item ∈ x.outgoing, ¬item.IsFarewell
  told : ChannelEvent.opened ∈ x.peer.events → x.peer.isOpen = true
  opens : x.peer.isOpen = true → ChannelEvent.opened ∈ x.peer.events ∨ x.machine.stage = .ready
  ready : x.machine.stage = .ready → x.peer.isOpen = true
  unshut : x.peer.isShut = false
  whole : ChannelEvent.closed ∉ x.peer.events
  unbroken : ∀ reason, ChannelEvent.failed reason ∉ x.peer.events

/-- What goes on between two ends that nothing disturbs. -/
structure Meets (t : Terms) (x y : Standing) (knocking : Bool) : Prop where
  offered : x.phase ≠ .dialing →
    .of (.offer t.offer) ∈ x.outgoing ∨ y.machine.localDescription ≠ none
  placed : y.machine.localDescription ≠ none →
    .localCandidate t.place ∈ y.peer.events ∨ .of (.candidate t.place) ∈ y.outgoing ∨
      x.peer.dialing = true
  dials : x.peer.dialing = true → x.peer.target.isSome = true ∨ x.peer.isOpen = true
  target : ∀ place, x.peer.target = some place → place.2 = t.port
  listens : y.machine.localDescription ≠ none → t.port ∈ y.peer.ports
  meets : x.peer.isOpen = true → knocking = true ∨ y.peer.isOpen = true

theorem Goes.withOutgoing {s : Session JoinedEnd} (h : Goes s.standing) {item : StreamItem}
    {rest : List StreamItem} (out : s.world.outgoing = item :: rest) :
    Goes (s.withOutgoing rest).standing :=
  ⟨h.alive, fun other there => h.speaks other (by
      rw [show s.standing.outgoing = item :: rest from out]
      exact List.mem_cons_of_mem item there),
    h.told, h.opens, h.ready, h.unshut, h.whole, h.unbroken⟩

/-- Where the channel dials is no part of what goes on at one end. -/
theorem Goes.aimed {x : Standing} (h : Goes x) (dialing : Bool) (target : Option (String × UInt16)) :
    Goes { x with peer := { x.peer with dialing := dialing, target := target } } :=
  ⟨h.alive, h.speaks, h.told, h.opens, h.ready, h.unshut, h.whole, h.unbroken⟩

/-- An end whose channel has reported something else than its opening. -/
theorem Goes.reported {s : Session JoinedEnd} (h : Goes s.standing) {event : ChannelEvent}
    {rest : List ChannelEvent} (reports : s.world.peer.events = event :: rest)
    (apart : event ≠ .opened) : Goes (s.withEvents rest).standing := by
  have events : ∀ {e}, e ∈ rest → e ∈ s.world.peer.events := fun there =>
    reports ▸ List.mem_cons_of_mem event there
  refine ⟨h.alive, h.speaks, fun there => h.told (events there), fun isOpen => ?_, h.ready,
    h.unshut, fun there => h.whole (events there),
    fun reason there => h.unbroken reason (events there)⟩
  refine (h.opens isOpen).imp_left fun there => ?_
  rw [show s.standing.peer.events = event :: rest from reports] at there
  exact (List.mem_cons.1 there).elim (fun same => absurd same.symm apart) fun later => later

/-- An end whose channel has reported its opening is ready, and as it was otherwise. -/
theorem Goes.openingReported {s : Session JoinedEnd} (h : Goes s.standing)
    (framed : Wire.WellFramed s.world.peer.written) (running : s.phase = .running)
    (settled : s.inputs = [])
    (stage : s.machine.stage = .answerExchanged ∨ s.machine.stage = .ready)
    {rest : List ChannelEvent} (reports : s.world.peer.events = .opened :: rest)
    (undisturbed : Undisturbed ((s.withEvents rest).fed surroundings (.channel .opened))) :
    let after := (s.withEvents rest).react surroundings (.channel .opened)
    after.standing = { (s.withEvents rest).standing with
        machine := { s.machine with stage := .ready } } ∧
      Goes after.standing ∧ Wire.WellFramed after.world.peer.written := by
  intro after
  have isOpen : s.world.peer.isOpen = true := h.told (reports ▸ List.mem_cons_self)
  have outcome : Kept { s.withEvents rest with machine := { s.machine with stage := .ready } }
      after := by
    rcases stage with exchanged | ready
    · obtain ⟨kept | ⟨-, disturbed⟩, -⟩ :=
        react_opened (s := s.withEvents rest) running settled exchanged
      · exact kept
      · exact absurd undisturbed disturbed
    · obtain ⟨session, -⟩ := react_opened_again (s := s.withEvents rest) running settled ready
      have same : { s.machine with stage := .ready } = s.machine := by
        rw [← ready]
      rw [same, show after = _ from session]
      exact ⟨rfl, rfl, rfl, _, rfl, fun framed => framed⟩
  have events : ∀ {e}, e ∈ rest → e ∈ s.world.peer.events := fun there =>
    reports ▸ List.mem_cons_of_mem _ there
  refine ⟨outcome.standing, ?_, outcome.framed framed⟩
  rw [outcome.standing]
  exact ⟨h.alive, h.speaks, fun _ => isOpen, fun _ => .inr rfl, fun _ => isOpen, h.unshut,
    fun there => h.whole (events there), fun reason there => h.unbroken reason (events there)⟩

/-- An event that a channel has got with a new one, and that is not the new one, was there
before. -/
theorem mem_of_mem_concat {events : List ChannelEvent} {event new : ChannelEvent}
    (there : event ∈ events ++ [new]) (apart : event ≠ new) : event ∈ events :=
  (List.mem_append.1 there).resolve_right fun here => apart (List.mem_singleton.1 here)

theorem opened_of_unshut {p : DirectPeer} (unshut : p.isShut = false) :
    p.opened = { p with target := none, isOpen := true, events := p.events ++ [.opened] } := by
  exact if_neg (Bool.eq_false_iff.1 unshut)

/-- An end whose channel opens. -/
theorem Goes.opened {s : Session JoinedEnd} (h : Goes s.standing) :
    Goes (s.withPeer s.world.peer.opened).standing := by
  have shown : s.world.peer.opened = _ := opened_of_unshut (p := s.world.peer) h.unshut
  rw [shown]
  exact ⟨h.alive, h.speaks, fun _ => rfl,
    fun _ => .inl (List.mem_append_right _ List.mem_cons_self), fun _ => rfl, h.unshut,
    fun there => h.whole (mem_of_mem_concat there nofun),
    fun reason there => h.unbroken reason (mem_of_mem_concat there nofun)⟩

theorem heard_of_unshut {p : DirectPeer} (unshut : p.isShut = false) (f : Frame) (rest : Bytes) :
    p.heard (.frame f rest) = { p with events := p.events ++ [.frame f] } := by
  exact if_neg (Bool.eq_false_iff.1 unshut)

/-- An end whose channel has a frame for it. -/
theorem Goes.heard {s : Session JoinedEnd} (h : Goes s.standing) (f : Frame) (rest : Bytes) :
    Goes (s.withPeer (s.world.peer.heard (.frame f rest))).standing := by
  have shown : s.world.peer.heard (.frame f rest) = _ :=
    heard_of_unshut (p := s.world.peer) h.unshut f rest
  rw [shown]
  exact ⟨h.alive, h.speaks, fun there => h.told (mem_of_mem_concat there nofun),
    fun isOpen => (h.opens isOpen).imp_left (List.mem_append_left _), h.ready, h.unshut,
    fun there => h.whole (mem_of_mem_concat there nofun),
    fun reason there => h.unbroken reason (mem_of_mem_concat there nofun)⟩

end Session

open Session

namespace SessionPair

/-- Whether nothing has disturbed two joined sessions. -/
structure Underway (t : Terms) (p : SessionPair) : Prop where
  near : Goes p.initiator.standing
  far : Goes p.responder.standing
  meets : Meets t p.initiator.standing p.responder.standing p.knocking
  nearFramed : Wire.WellFramed p.initiator.world.peer.written
  farFramed : Wire.WellFramed p.responder.world.peer.written

variable {t : Terms} {offer answer : Transit} {p : SessionPair}

/-! ## At rest -/

/-- What it means for a pair to be at rest. -/
structure Rests (p : SessionPair) : Prop where
  dialed : p.initiator.phase ≠ .dialing
  nearSilent : p.initiator.world.outgoing = []
  farSilent : p.responder.world.outgoing = []
  nearEvents : p.initiator.world.peer.events = []
  farEvents : p.responder.world.peer.events = []
  target : p.initiator.world.peer.target.isSome = false
  letIn : p.canLetIn = false

theorem rests_of_isAtRest (h : p.isAtRest = true) : p.Rests := by
  have none_due : p.enabled = [] := List.isEmpty_iff.1 h
  have if_nil : ∀ {c : Prop} [Decidable c] {m : Move}, (if c then [m] else []) = [] → ¬c := by
    intro c _ m nil holds
    rw [if_pos holds] at nil
    cases nil
  have else_nil : ∀ {c : Prop} [Decidable c] {m : Move}, (if c then [] else [m]) = [] → c := by
    intro c _ m nil
    refine Decidable.byContradiction fun fails => ?_
    rw [if_neg fails] at nil
    cases nil
  unfold enabled at none_due
  simp only [List.append_eq_nil_iff, List.flatMap_cons, List.flatMap_nil] at none_due
  obtain ⟨⟨⟨dialed, ⟨⟨farSilent, nearEvents⟩, -⟩, ⟨⟨nearSilent, farEvents⟩, -⟩, -⟩, target⟩, letIn⟩ :=
    none_due
  exact ⟨if_nil dialed, List.isEmpty_iff.1 (else_nil nearSilent),
    List.isEmpty_iff.1 (else_nil farSilent), List.isEmpty_iff.1 (else_nil nearEvents),
    List.isEmpty_iff.1 (else_nil farEvents), Bool.eq_false_iff.2 (if_nil target),
    Bool.eq_false_iff.2 (if_nil letIn)⟩

/-- **Two joined sessions that nothing has disturbed are ready when they are at rest.** -/
theorem ready_of_rest (underway : Underway t p) (rests : p.Rests) :
    p.initiator.machine.stage = .ready ∧ p.responder.machine.stage = .ready := by
  have answered : p.responder.machine.localDescription ≠ none := by
    rcases underway.meets.offered rests.dialed with there | answered
    · rw [show p.initiator.standing.outgoing = [] from rests.nearSilent] at there
      exact absurd there List.not_mem_nil
    · exact answered
  have dials : p.initiator.world.peer.dialing = true := by
    rcases underway.meets.placed answered with there | there | dials
    · rw [show p.responder.standing.peer.events = [] from rests.farEvents] at there
      exact absurd there List.not_mem_nil
    · rw [show p.responder.standing.outgoing = [] from rests.farSilent] at there
      exact absurd there List.not_mem_nil
    · exact dials
  have near_open : p.initiator.world.peer.isOpen = true := by
    rcases underway.meets.dials dials with waits | isOpen
    · exact absurd (rests.target.symm.trans waits) nofun
    · exact isOpen
  have far_open : p.responder.world.peer.isOpen = true := by
    rcases underway.meets.meets near_open with knocks | isOpen
    · have can : p.canLetIn = true := by
        have unshut : p.responder.world.peer.isShut = false := underway.far.unshut
        simp only [canLetIn, peer, session, knocks, unshut]
        rfl
      exact absurd (rests.letIn.symm.trans can) nofun
    · exact isOpen
  constructor
  · rcases underway.near.opens near_open with there | ready
    · rw [show p.initiator.standing.peer.events = [] from rests.nearEvents] at there
      exact absurd there List.not_mem_nil
    · exact ready
  · rcases underway.far.opens far_open with there | ready
    · rw [show p.responder.standing.peer.events = [] from rests.farEvents] at there
      exact absurd there List.not_mem_nil
    · exact ready

/-! ## What single moves keep -/

theorem Underway.dialed (h : Underway t p) (agreeing : Agreeing t offer answer p) :
    Underway t (p.move .dialed) := by
  show Underway t { p with initiator := p.initiator.react surroundings .dialed }
  by_cases dialing : p.initiator.phase = .dialing
  · have unsent : answer = .unsent :=
      agreeing.unsent (by rw [agreeing.near.stands.unsent dialing]; nofun)
    have unanswered : p.responder.machine.localDescription = none := by
      rw [show p.responder.machine.localDescription = _ from agreeing.far.mine, if_pos unsent]
    cases agreeing.near.stands with
    | ended stopped _ => exact absurd stopped h.near.alive
    | offered runs => exact absurd (dialing.symm.trans runs) nofun
    | agreed runs => exact absurd (dialing.symm.trans runs) nofun
    | dialing _ _ fresh sessionId host quiet =>
      obtain ⟨limit, machine⟩ := fresh
      have sessionId : p.initiator.world.peer.sessionId = t.sessionId := sessionId
      have host : p.initiator.world.peer.host = t.host := host
      have quiet : p.initiator.world.outgoing = [] := quiet
      obtain ⟨session, -⟩ := react_dialed dialing machine
      rw [session, sessionId, host, quiet]
      refine ⟨⟨nofun, ?_, nofun, nofun, nofun, rfl, nofun, nofun⟩, h.far,
        ⟨fun _ => .inl List.mem_cons_self, fun there => absurd unanswered there, nofun, nofun,
          fun there => absurd unanswered there, nofun⟩, .nil, h.farFramed⟩
      intro item there
      rw [List.mem_singleton.1 there]
      exact StreamItem.not_isFarewell_of nofun
  · obtain ⟨runs, settled⟩ := agreeing.near.stands.running h.near.alive dialing
    have taken : p.initiator.take surroundings .dialed = p.initiator := rfl
    obtain ⟨-, session⟩ := keptOrFell_of_kept runs settled (taken.symm ▸ Kept.refl p.initiator)
    rw [session, taken]
    exact h

/-- The initiator's channel takes the responder's place, and dials. -/
theorem applyCandidate_place (word : Text.IsWord t.remoteHost) {w : JoinedEnd}
    (role : w.peer.role = .initiator) :
    (surroundings.applyCandidate t.place w).2 =
      if w.peer.dialing then w
      else { w with peer :=
        { w.peer with dialing := true, target := some (t.remoteHost, t.port) } } := by
  have endpoint : Candidate.endpointOf t.place.line = .ok (t.remoteHost, t.port) :=
    Candidate.endpointOf_hostLine word t.port
  show (w.took (w.peer.applyCandidate t.place)).2 = _
  unfold DirectPeer.applyCandidate
  cases dialing : w.peer.dialing with
  | true =>
    rw [if_pos (.inr rfl), if_pos rfl]
    rfl
  | false =>
    have active : ¬(w.peer.role = .responder ∨ false = true) := by
      rw [role]
      exact fun either => either.elim nofun nofun
    rw [if_neg active, endpoint, if_neg nofun]
    rfl

/-- The responder's answer arrives. -/
theorem Underway.answer_arrives (h : Underway t p) (agreeing : Agreeing t offer .flying p)
    {rest : List StreamItem}
    (out : p.responder.world.outgoing = StreamItem.of (.answer t.answer) :: rest) :
    Underway t (p.move (.arrive .initiator)) := by
  rw [(SessionPair.arrive_initiator out).1]
  have gone : offer = .gone := agreeing.ordered nofun
  have placed : p.responder.machine.localDescription ≠ none →
      .localCandidate t.place ∈ p.responder.world.peer.events ∨
        .of (.candidate t.place) ∈ rest ∨ p.initiator.world.peer.dialing = true := by
    intro there
    refine (h.meets.placed there).imp_right (Or.imp_left fun flies => ?_)
    rw [show p.responder.standing.outgoing = _ from out] at flies
    rcases List.mem_cons.1 flies with same | later
    · exact absurd (StreamItem.of_injective same) nofun
    · exact later
  cases agreeing.near.stands with
  | ended stopped _ => exact absurd stopped h.near.alive
  | dialing _ unsent => exact absurd (gone.symm.trans unsent) nofun
  | agreed _ _ arrived => exact absurd arrived nofun
  | offered runs settled sent _ role stage waiting peer_role =>
    have stage : p.initiator.machine.stage = .offerSent := stage
    obtain ⟨session, -⟩ := react_answer runs settled role stage waiting peer_role
      (describes_answer t)
    rw [show p.initiator.react surroundings (StreamItem.of (.answer t.answer)).stimulus = _ from
      session]
    refine ⟨⟨h.near.alive, h.near.speaks, h.near.told, fun isOpen => ?_, nofun, h.near.unshut,
      h.near.whole, h.near.unbroken⟩, h.far.withOutgoing out, ⟨h.meets.offered, placed,
      h.meets.dials, h.meets.target, h.meets.listens, h.meets.meets⟩, h.nearFramed, h.farFramed⟩
    rcases h.near.opens isOpen with there | ready
    · exact .inl there
    · exact absurd (stage.symm.trans ready) nofun

/-- The responder's place arrives, and the initiator's channel dials it unless it has dialed
before. -/
theorem Underway.place_arrives (h : Underway t p) (agreeing : Agreeing t offer .gone p)
    (word : Text.IsWord t.remoteHost) {rest : List StreamItem}
    (out : p.responder.world.outgoing = StreamItem.of (.candidate t.place) :: rest) :
    Underway t (p.move (.arrive .initiator)) := by
  rw [(SessionPair.arrive_initiator out).1]
  have far := h.far.withOutgoing out
  have gone : offer = .gone := agreeing.ordered nofun
  cases agreeing.near.stands with
  | ended stopped _ => exact absurd stopped h.near.alive
  | dialing _ unsent => exact absurd (gone.symm.trans unsent) nofun
  | offered _ _ _ open_ => exact absurd rfl open_
  | agreed runs settled _ stage theirs peer_role =>
    obtain ⟨session, -⟩ := react_candidate (c := t.place) runs settled stage
    rw [show p.initiator.react surroundings (StreamItem.of (.candidate t.place)).stimulus = _
      from session, applyCandidate_place word peer_role]
    cases dialing : p.initiator.world.peer.dialing with
    | true =>
      rw [if_pos rfl]
      exact ⟨h.near, far, ⟨h.meets.offered, fun _ => .inr (.inr dialing), h.meets.dials,
        h.meets.target, h.meets.listens, h.meets.meets⟩, h.nearFramed, h.farFramed⟩
    | false =>
      rw [if_neg nofun]
      refine ⟨h.near.aimed true (some (t.remoteHost, t.port)), far, ⟨h.meets.offered,
        fun _ => .inr (.inr rfl), fun _ => .inl rfl, ?_, h.meets.listens, h.meets.meets⟩,
        h.nearFramed, h.farFramed⟩
      intro place target
      exact (Option.some.inj target) ▸ rfl

theorem Underway.arrive_initiator (h : Underway t p) (agreeing : Agreeing t offer answer p)
    (word : Text.IsWord t.remoteHost) : Underway t (p.move (.arrive .initiator)) := by
  cases out : p.responder.world.outgoing with
  | nil => exact (arrive_initiator_nil out).1.symm ▸ h
  | cons item rest =>
    have outgoing := agreeing.far.outgoing
    rw [show p.responder.standing.outgoing = item :: rest from out] at outgoing
    by_cases flying : answer = .flying
    · subst flying
      obtain ⟨rfl, -⟩ := outgoing.pop_front
      exact h.answer_arrives agreeing out
    · rw [if_neg flying] at outgoing
      rcases outgoing.pop.1 with farewell | ⟨rfl, sent⟩
      · refine absurd farewell (h.far.speaks item ?_)
        rw [show p.responder.standing.outgoing = item :: rest from out]
        exact List.mem_cons_self
      · cases answer with
        | unsent => exact absurd rfl sent
        | flying => exact absurd rfl flying
        | gone => exact h.place_arrives agreeing word out

/-- The offer arrives at the responder, which answers it and learns its place. -/
theorem Underway.offer_arrives (h : Underway t p) (agreeing : Agreeing t .flying answer p)
    {rest : List StreamItem}
    (out : p.initiator.world.outgoing = StreamItem.of (.offer t.offer) :: rest) :
    Underway t (p.move (.arrive .responder)) := by
  rw [(SessionPair.arrive_responder out).1]
  have unsent : answer = .unsent := agreeing.unsent nofun
  cases agreeing.far.stands with
  | ended stopped _ => exact absurd stopped h.far.alive
  | agreed _ _ sent => exact absurd unsent sent
  | awaiting runs settled _ fresh peer_role sessionId host port quiet =>
    obtain ⟨limit, machine⟩ := fresh
    have host : p.responder.world.peer.host = t.remoteHost := host
    have port : p.responder.world.port = t.port := port
    have quiet : p.responder.world.outgoing = [] := quiet
    have stage : p.responder.machine.stage = .awaitingOffer := congrArg Handshake.stage machine
    have place : p.responder.world.peer.candidate p.responder.world.port = t.place := by
      unfold DirectPeer.candidate
      rw [host, port]
      rfl
    obtain ⟨session, -⟩ := react_offer runs settled machine peer_role (describes_offer t)
    rw [show p.responder.react surroundings (StreamItem.of (.offer t.offer)).stimulus = _ from
      session, place, quiet]
    refine ⟨h.near.withOutgoing out, ⟨h.far.alive, fun item there => ?_,
        fun there => h.far.told (mem_of_mem_concat there nofun), fun isOpen => ?_, nofun,
        h.far.unshut, fun there => h.far.whole (mem_of_mem_concat there nofun),
        fun reason there => h.far.unbroken reason (mem_of_mem_concat there nofun)⟩,
      ⟨fun _ => .inr nofun, fun _ => .inl (List.mem_append_right _ List.mem_cons_self),
        h.meets.dials, h.meets.target, fun _ => ?_, h.meets.meets⟩,
      h.nearFramed, h.farFramed⟩
    · rw [List.mem_singleton.1 there]
      exact StreamItem.not_isFarewell_of nofun
    · rcases h.far.opens isOpen with there | ready
      · exact .inl (List.mem_append_left _ there)
      · exact absurd (stage.symm.trans ready) nofun
    · show t.port ∈ p.responder.world.peer.ports ++ [p.responder.world.port]
      rw [port]
      exact List.mem_append_right _ List.mem_cons_self

theorem Underway.arrive_responder (h : Underway t p) (agreeing : Agreeing t offer answer p) :
    Underway t (p.move (.arrive .responder)) := by
  cases out : p.initiator.world.outgoing with
  | nil => exact (arrive_responder_nil out).1.symm ▸ h
  | cons item rest =>
    have outgoing := agreeing.near.outgoing
    rw [show p.initiator.standing.outgoing = item :: rest from out] at outgoing
    by_cases flying : offer = .flying
    · subst flying
      obtain ⟨rfl, -⟩ := outgoing.pop_front
      exact h.offer_arrives agreeing out
    · rw [if_neg flying] at outgoing
      refine absurd outgoing.pop.1 (h.near.speaks item ?_)
      rw [show p.initiator.standing.outgoing = item :: rest from out]
      exact List.mem_cons_self

theorem Underway.report_initiator (h : Underway t p) (agreeing : Agreeing t offer answer p)
    (undisturbed : Undisturbed (p.fedBy (.report .initiator))) :
    Underway t (p.move (.report .initiator)) := by
  cases reports : p.initiator.world.peer.events with
  | nil => exact (report_initiator_nil reports).1.symm ▸ h
  | cons event rest =>
    obtain ⟨moved, feeds⟩ := SessionPair.report_initiator reports
    rw [moved]
    rw [feeds] at undisturbed
    have present : event ∈ p.initiator.world.peer.events := reports ▸ List.mem_cons_self
    cases event with
    | localCandidate c => exact absurd present (agreeing.near.silent c)
    | closed => exact absurd present h.near.whole
    | failed reason => exact absurd present (h.near.unbroken reason)
    | frame f =>
      have near : Goes (p.initiator.withEvents rest).standing := h.near.reported reports nofun
      have moved := agreeing.near.moved (peerMoved_popped reports)
      obtain ⟨-, kept⟩ := moved.stands.poised.react_frame f
      have meets : Meets t (p.initiator.withEvents rest).standing p.responder.standing p.knocking :=
        ⟨h.meets.offered, h.meets.placed, h.meets.dials, h.meets.target, h.meets.listens,
          h.meets.meets⟩
      have stands := kept.standing
      exact ⟨stands ▸ near, h.far, stands ▸ meets, kept.framed h.nearFramed, h.farFramed⟩
    | opened =>
      have gone : answer = .gone := agreeing.near.dialled (.inr present)
      cases agreeing.near.stands with
      | ended stopped _ => exact absurd stopped h.near.alive
      | dialing _ unsent =>
        exact absurd ((agreeing.ordered (by rw [gone]; nofun)).symm.trans unsent) nofun
      | offered _ _ _ open_ => exact absurd gone open_
      | agreed runs settled _ stage =>
        obtain ⟨stands, near, framed⟩ :=
          h.near.openingReported h.nearFramed runs settled stage reports undisturbed
        refine ⟨near, h.far, ?_, framed, h.farFramed⟩
        show Meets t (standing (_ : Session JoinedEnd)) _ _
        rw [stands]
        exact ⟨h.meets.offered, h.meets.placed, h.meets.dials, h.meets.target, h.meets.listens,
          h.meets.meets⟩

/-- Whatever the responder's channel has reported, the place is still on its way, unless it was
the place that was reported. -/
theorem Underway.placed_of_reported (h : Underway t p) {event : ChannelEvent}
    {rest : List ChannelEvent} (reports : p.responder.world.peer.events = event :: rest)
    (apart : event ≠ .localCandidate t.place)
    (answered : p.responder.machine.localDescription ≠ none) :
    .localCandidate t.place ∈ rest ∨ .of (.candidate t.place) ∈ p.responder.world.outgoing ∨
      p.initiator.world.peer.dialing = true := by
  refine (h.meets.placed answered).imp_left fun waits => ?_
  rw [show p.responder.standing.peer.events = event :: rest from reports] at waits
  exact List.mem_of_ne_of_mem apart.symm waits

/-- The responder's channel reports its place, which goes onto the stream. -/
theorem Underway.place_reported (h : Underway t p) (agreeing : Agreeing t offer answer p)
    (sent : answer ≠ .unsent) {rest : List ChannelEvent}
    (reports : p.responder.world.peer.events = .localCandidate t.place :: rest) :
    Underway t (p.move (.report .responder)) := by
  rw [(SessionPair.report_responder reports).1]
  have far : Goes (p.responder.withEvents rest).standing := h.far.reported reports nofun
  cases agreeing.far.stands with
  | ended stopped _ => exact absurd stopped h.far.alive
  | awaiting _ _ unsent => exact absurd unsent sent
  | agreed runs settled _ stage =>
    have mine : p.responder.machine.localDescription ≠ none := by
      rw [show p.responder.machine.localDescription = _ from agreeing.far.mine, if_neg sent]
      nofun
    obtain ⟨session, -⟩ := react_localCandidate (s := p.responder.withEvents rest)
      (c := t.place) runs settled (not_closed_of_agreed stage) mine
    rw [session]
    refine ⟨h.near, ⟨far.alive, fun item there => ?_, far.told, far.opens, far.ready,
        far.unshut, far.whole, far.unbroken⟩,
      ⟨h.meets.offered, fun _ => .inr (.inl (List.mem_append_right _ List.mem_cons_self)),
        h.meets.dials, h.meets.target, h.meets.listens, h.meets.meets⟩,
      h.nearFramed, h.farFramed⟩
    rcases List.mem_append.1 there with before | new
    · exact far.speaks item before
    · rw [List.mem_singleton.1 new]
      exact StreamItem.not_isFarewell_of nofun

theorem Underway.report_responder (h : Underway t p) (agreeing : Agreeing t offer answer p)
    (undisturbed : Undisturbed (p.fedBy (.report .responder))) :
    Underway t (p.move (.report .responder)) := by
  cases reports : p.responder.world.peer.events with
  | nil => exact (report_responder_nil reports).1.symm ▸ h
  | cons event rest =>
    obtain ⟨moved, feeds⟩ := SessionPair.report_responder reports
    rw [feeds] at undisturbed
    have present : event ∈ p.responder.world.peer.events := reports ▸ List.mem_cons_self
    cases event with
    | closed => exact absurd present h.far.whole
    | failed reason => exact absurd present (h.far.unbroken reason)
    | localCandidate c =>
      obtain ⟨rfl, sent⟩ := agreeing.far.named c present
      exact h.place_reported agreeing sent reports
    | frame f =>
      rw [moved]
      have far : Goes (p.responder.withEvents rest).standing := h.far.reported reports nofun
      have moved := agreeing.far.moved (peerMoved_popped reports)
      obtain ⟨-, kept⟩ := moved.stands.poised.react_frame f
      have meets : Meets t p.initiator.standing (p.responder.withEvents rest).standing p.knocking :=
        ⟨h.meets.offered, h.placed_of_reported reports nofun, h.meets.dials, h.meets.target,
          h.meets.listens, h.meets.meets⟩
      have stands := kept.standing
      exact ⟨h.near, stands ▸ far, stands ▸ meets, h.nearFramed, kept.framed h.farFramed⟩
    | opened =>
      rw [moved]
      have sent := agreeing.far.opened present
      cases agreeing.far.stands with
      | ended stopped _ => exact absurd stopped h.far.alive
      | awaiting _ _ unsent => exact absurd unsent sent
      | agreed runs settled _ stage =>
        obtain ⟨stands, far, framed⟩ :=
          h.far.openingReported h.farFramed runs settled stage reports undisturbed
        refine ⟨h.near, far, ?_, h.nearFramed, framed⟩
        show Meets t _ (standing (_ : Session JoinedEnd)) _
        rw [stands]
        exact ⟨h.meets.offered, h.placed_of_reported reports nofun, h.meets.dials, h.meets.target,
          h.meets.listens, h.meets.meets⟩

theorem Underway.knock (h : Underway t p) (agreeing : Agreeing t offer answer p) :
    Underway t (p.move .knock) := by
  cases target : p.initiator.world.peer.target with
  | none => exact (knock_nowhere target).symm ▸ h
  | some place =>
    have gone : answer = .gone := agreeing.near.dialled (.inl (by
      show p.initiator.world.peer.target.isSome = true
      rw [target]
      rfl))
    have answered : p.responder.machine.localDescription ≠ none := by
      rw [show p.responder.machine.localDescription = _ from agreeing.far.mine, gone]
      nofun
    have listens : p.isListening place.2 = true := by
      have port : place.2 = t.port := h.meets.target place target
      have bound : t.port ∈ p.responder.world.peer.ports := h.meets.listens answered
      have unshut : p.responder.world.peer.isShut = false := h.far.unshut
      simp only [isListening, peer, session, unshut, port, List.contains_iff_mem.2 bound]
      rfl
    rw [knock_heard target listens]
    have near := h.near.opened
    have shown : p.initiator.world.peer.opened = _ :=
      opened_of_unshut (p := p.initiator.world.peer) h.near.unshut
    have fits : p.initiator.world.peer.opened.written = p.initiator.world.peer.written := by
      rw [shown]
    refine ⟨near, h.far, ⟨h.meets.offered, fun there => ?_, fun _ => .inr ?_, fun place there => ?_,
      h.meets.listens, fun _ => .inl rfl⟩, fits ▸ h.nearFramed, h.farFramed⟩
    · show _ ∨ _ ∨ p.initiator.world.peer.opened.dialing = true
      rw [shown]
      exact h.meets.placed there
    · show p.initiator.world.peer.opened.isOpen = true
      rw [shown]
    · have there : p.initiator.world.peer.opened.target = some place := there
      rw [shown] at there
      cases there

theorem Underway.letIn (h : Underway t p) : Underway t (p.move .letIn) := by
  cases can : p.canLetIn with
  | false => exact (letIn_cannot can).symm ▸ h
  | true =>
    rw [letIn_can can]
    have shown : p.responder.world.peer.opened = _ :=
      opened_of_unshut (p := p.responder.world.peer) h.far.unshut
    have fits : p.responder.world.peer.opened.written = p.responder.world.peer.written := by
      rw [shown]
    refine ⟨h.near, h.far.opened, ⟨h.meets.offered, fun there => ?_, h.meets.dials, h.meets.target,
      fun there => ?_, fun _ => .inr ?_⟩, h.nearFramed, fits ▸ h.farFramed⟩
    · refine (h.meets.placed there).imp_left fun waits => ?_
      show _ ∈ p.responder.world.peer.opened.events
      rw [shown]
      exact List.mem_append_left _ waits
    · show t.port ∈ p.responder.world.peer.opened.ports
      rw [shown]
      exact h.meets.listens there
    · show p.responder.world.peer.opened.isOpen = true
      rw [shown]

/-- From a channel that takes only frames, only frames are read. -/
theorem readable_outcome (role : Role) (unshut : (p.peer (other role)).isShut = false)
    (written : Wire.WellFramed (p.peer (other role)).written) :
    p.readable? role = none ∨
      ∃ f rest, p.readable? role = some (.frame f rest) ∧ Wire.WellFramed rest := by
  unfold readable?
  by_cases reads : ((p.peer role).isOpen && !p.drained role) = true
  · rw [if_pos reads]
    rcases written.read with ⟨-, finished⟩ | ⟨f, rest, frame, others⟩
    · rw [finished]
      exact .inl (if_neg (Bool.eq_false_iff.1 unshut))
    · rw [frame]
      exact .inr ⟨f, rest, rfl, others⟩
  · exact .inl (if_neg reads)

theorem Underway.read (h : Underway t p) (role : Role) : Underway t (p.move (.read role)) := by
  have outcome : p.readable? role = none ∨
      ∃ f rest, p.readable? role = some (.frame f rest) ∧ Wire.WellFramed rest := by
    cases role with
    | initiator => exact readable_outcome .initiator h.far.unshut h.farFramed
    | responder => exact readable_outcome .responder h.near.unshut h.nearFramed
  rcases outcome with nothing | ⟨f, rest, found, others⟩
  · have moved : p.move (.read role) = p := by
      simp only [move, nothing]
    exact moved.symm ▸ h
  · simp only [move, found]
    cases role with
    | initiator =>
      have shown : p.initiator.world.peer.heard (.frame f rest) = _ :=
        heard_of_unshut (p := p.initiator.world.peer) h.near.unshut f rest
      show Underway t { p with
        initiator := p.initiator.withPeer (p.initiator.world.peer.heard (.frame f rest))
        responder := p.responder.withPeer { p.responder.world.peer with written := rest } }
      have near := h.near.heard f rest
      rw [shown] at near ⊢
      exact ⟨near, h.far, ⟨h.meets.offered, h.meets.placed, h.meets.dials, h.meets.target,
        h.meets.listens, h.meets.meets⟩, h.nearFramed,
        others⟩
    | responder =>
      have shown : p.responder.world.peer.heard (.frame f rest) = _ :=
        heard_of_unshut (p := p.responder.world.peer) h.far.unshut f rest
      show Underway t { p with
        initiator := p.initiator.withPeer { p.initiator.world.peer with written := rest }
        responder := p.responder.withPeer (p.responder.world.peer.heard (.frame f rest)) }
      have far := h.far.heard f rest
      rw [shown] at far ⊢
      exact ⟨h.near, far, ⟨h.meets.offered,
        fun there => (h.meets.placed there).imp_left (List.mem_append_left _), h.meets.dials,
        h.meets.target, h.meets.listens, h.meets.meets⟩, others,
        h.farFramed⟩

/-- What the outside does to an end keeps it as it is, unless it is a disturbance. -/
theorem Underway.wake (h : Underway t p) (agreeing : Agreeing t offer answer p) (role : Role)
    {stimulus : Stimulus} (outside : stimulus.IsOutside)
    (undisturbed : Undisturbed (p.fedBy (.wake role stimulus))) :
    Underway t (p.move (.wake role stimulus)) := by
  cases role with
  | initiator =>
    have kept := (agreeing.near.stands.poised.outside outside).kept outside undisturbed
    have stands := kept.standing
    exact ⟨stands ▸ h.near, h.far, stands ▸ h.meets, kept.framed h.nearFramed, h.farFramed⟩
  | responder =>
    have kept := (agreeing.far.stands.poised.outside outside).kept outside undisturbed
    have stands := kept.standing
    exact ⟨h.near, stands ▸ h.far, stands ▸ h.meets, h.nearFramed, kept.framed h.farFramed⟩

/-- **Every proper move that is no disturbance keeps what is underway.** -/
theorem underway_move (h : Underway t p) (agreeing : Agreeing t offer answer p)
    (word : Text.IsWord t.remoteHost) {m : Move} (proper : m.IsProper)
    (undisturbed : Undisturbed (p.fedBy m)) : Underway t (p.move m) := by
  match m, proper with
  | .dialed, _ => exact h.dialed agreeing
  | .arrive .initiator, _ => exact h.arrive_initiator agreeing word
  | .arrive .responder, _ => exact h.arrive_responder agreeing
  | .report .initiator, _ => exact h.report_initiator agreeing undisturbed
  | .report .responder, _ => exact h.report_responder agreeing undisturbed
  | .knock, _ => exact h.knock agreeing
  | .letIn, _ => exact h.letIn
  | .read role, _ => exact h.read role
  | .wake role _, outside => exact h.wake agreeing role outside undisturbed

theorem underway_run (h : Underway t p) (agreeing : Agreeing t offer answer p)
    (word : Text.IsWord t.remoteHost) {moves : List Move} (proper : ∀ m ∈ moves, m.IsProper)
    (undisturbed : Undisturbed (p.history moves)) : Underway t (p.run moves) := by
  induction moves generalizing offer answer p with
  | nil => exact h
  | cons m rest ih =>
    have first := proper m List.mem_cons_self
    obtain ⟨⟨offer', answer', next⟩, -⟩ := agrees_move agreeing first
    have calm : Undisturbed (p.fedBy m) := fun f there =>
      undisturbed f (List.mem_append_left _ there)
    exact ih (underway_move h agreeing word first calm) next
      (fun m' there => proper m' (List.mem_cons_of_mem m there))
      fun f there => undisturbed f (List.mem_append_right _ there)

end SessionPair

namespace Terms

theorem underway_begin (t : Terms) : SessionPair.Underway t t.begin where
  near := ⟨nofun, nofun, nofun, nofun, nofun, rfl, nofun, nofun⟩
  far := ⟨nofun, nofun, nofun, nofun, nofun, rfl, nofun, nofun⟩
  meets := ⟨fun dialed => absurd rfl dialed, fun there => absurd rfl there, nofun, nofun,
    fun there => absurd rfl there, nofun⟩
  nearFramed := .nil
  farFramed := .nil

end Terms

end TopicMesh
