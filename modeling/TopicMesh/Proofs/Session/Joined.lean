import TopicMesh.Proofs.Direct.Dialing
import TopicMesh.Proofs.Session.Feeding
import TopicMesh.Proofs.Signal.RoundTrip
import TopicMesh.Proofs.Wire.FrameStream
import TopicMesh.Session.Pair

/-!
# The outcomes of a joined session

What each stimulus does to a session whose channel is a direct peer, for a session
that has worked through everything before.

* The steps of the exchange have one outcome each, given as the session afterwards and
  what was fed (`react_dialed`, `react_offer`, `react_answer` and so on).
* A frame to be sent and what the outside does to the session either keeps it as it is,
  but for what was written to the channel (`Kept`), or ends it (`Fell`).
-/

namespace TopicMesh

/-- A signal on its way. -/
def StreamItem.of (s : Signal) : StreamItem :=
  .text s.toText

/-- What an item is to the session that it reaches. -/
def StreamItem.stimulus : StreamItem → Session.Stimulus
  | .text s => .text s
  | .ended => .streamEnded

/-- Whether an item is the end of a stream or a farewell. -/
def StreamItem.IsFarewell (item : StreamItem) : Prop :=
  item = .ended ∨ item = .of .bye

theorem StreamItem.of_injective {m m' : Signal} (same : StreamItem.of m = .of m') : m = m' := by
  have read := congrArg Signal.ofText? (StreamItem.text.inj same)
  rw [Signal.ofText?_toText, Signal.ofText?_toText] at read
  exact Option.some.inj read

theorem StreamItem.not_isFarewell_of {m : Signal} (stays : m ≠ .bye) :
    ¬(StreamItem.of m).IsFarewell := by
  rintro (ended | bye)
  · cases ended
  · exact stays (StreamItem.of_injective bye)

namespace Session

open JoinedEnd

variable {s s' : Session JoinedEnd}

/-! ## How sessions end -/

/-- Whether a session ended: what it had said stays, and nothing but a farewell
follows. -/
structure Fell (s s' : Session JoinedEnd) : Prop where
  ended : s'.phase = .ended
  closed : s'.machine.stage = .closed
  mine : s'.machine.localDescription = s.machine.localDescription
  outgoing : ∃ tail, s'.world.outgoing = s.world.outgoing ++ tail ∧
    ∀ item ∈ tail, item.IsFarewell
  events : s'.world.peer.events = s.world.peer.events
  target : s'.world.peer.target.isSome → s.world.peer.target.isSome

/-- Whether an input ends a handshake. -/
def Ends (h : Handshake) (i : Handshake.Input) : Prop :=
  ∃ (h' : Handshake) (reason : CloseReason) (farewell : Bool),
    h.step i = .ok (h'.endWith reason farewell) ∧ h'.stage ≠ .closed ∧
      h'.localDescription = h.localDescription

theorem Ends.accepted {h : Handshake} {i : Handshake.Input} (ends : Ends h i) :
    Feeding.Accepted ⟨h, i⟩ := by
  obtain ⟨_, _, _, step, _⟩ := ends
  exact ⟨_, step⟩

theorem ends_close {h : Handshake} (still : h.stage ≠ .closed) : Ends h .close :=
  ⟨h, .requested, true, rfl, still, rfl⟩

theorem ends_failed {h : Handshake} (still : h.stage ≠ .closed) (reason : String) :
    Ends h (.failed reason) :=
  ⟨h, .failed reason, false, rfl, still, rfl⟩

theorem ends_channelClosed {h : Handshake} (still : h.stage ≠ .closed) : Ends h .channelClosed :=
  ⟨h, .channelClosed, false, rfl, still, rfl⟩

theorem ends_streamClosed {h : Handshake} (still : h.stage ≠ .closed) : Ends h .streamClosed :=
  ⟨{ h with streamOpen := false }, .streamClosed, false, rfl, still, rfl⟩

theorem ends_bye {h : Handshake} (still : h.stage ≠ .closed) : Ends h (.signal .bye) :=
  ⟨h, .remoteBye, false, congrArg Handshake.Turn.outcome (if_neg still), still, rfl⟩

theorem ends_timeout {h : Handshake} (still : h.stage ≠ .closed) (early : h.stage ≠ .ready) :
    Ends h .timeout :=
  ⟨h, .timeout, true, congrArg Handshake.Turn.outcome (if_neg early), still, rfl⟩

theorem fell_of_ending {i : Handshake.Input} (alive : s.phase ≠ .ended) (ends : Ends s.machine i) :
    Fell s (s.process surroundings i) := by
  obtain ⟨h, reason, farewell, step, still, mine⟩ := ends
  rw [Handshake.endWith, if_neg still] at step
  rw [process_of_step step]
  by_cases leaves : (farewell && h.streamOpen) = true
  · rw [if_pos leaves, List.singleton_append, carryOutAll_cons (by exact alive),
      carryOutAll_cons (by exact alive)]
    refine ⟨rfl, rfl, mine, ⟨[.of .bye, .ended], ?_, ?_⟩, rfl, nofun⟩
    · exact List.append_assoc _ [StreamItem.of .bye] [StreamItem.ended]
    · rintro item (_ | ⟨_, _ | ⟨_, ⟨⟩⟩⟩)
      · exact .inr rfl
      · exact .inl rfl
  · rw [if_neg leaves, List.nil_append, carryOutAll_cons (by exact alive)]
    refine ⟨rfl, rfl, mine, ⟨[.ended], rfl, ?_⟩, rfl, nofun⟩
    rintro item (_ | ⟨_, ⟨⟩⟩)
    exact .inl rfl

theorem settles_ending {i : Handshake.Input} (alive : s.phase ≠ .ended) (next : s.inputs = [i])
    (ends : Ends s.machine i) :
    ∃ s', Settles surroundings s [⟨s.machine, i⟩] s' ∧ Fell s s' := by
  have fell : Fell { s with inputs := [] } ({ s with inputs := [] }.process surroundings i) :=
    fell_of_ending alive ends
  exact ⟨_, .step alive next (.rest (.inl fell.ended)),
    ⟨fell.ended, fell.closed, fell.mine, fell.outgoing, fell.events, fell.target⟩⟩

/-- A session that takes a stimulus for an input that ends it ends. -/
theorem react_ending {stimulus : Stimulus} {i : Handshake.Input} (running : s.phase = .running)
    (settled : s.inputs = []) (taken : s.take surroundings stimulus = s.push i)
    (ends : Ends s.machine i) :
    Fell s (s.react surroundings stimulus) ∧
      s.fed surroundings stimulus = [⟨s.machine, i⟩] := by
  have alive : (s.push i).phase ≠ .ended := by
    rw [show (s.push i).phase = s.phase from rfl, running]
    nofun
  have next : (s.push i).inputs = [i] := by
    rw [show (s.push i).inputs = s.inputs ++ [i] from rfl, settled]
    rfl
  obtain ⟨s', settles, fell⟩ := settles_ending alive next ends
  have enough : 1 ≤ (s.push i).due := by
    rw [due, next]
    cases i <;> simp [weight]
    split <;> omega
  rw [← taken] at settles enough
  obtain ⟨session, feedings⟩ := react_of_settles running settles enough
  rw [machine_take] at feedings
  rw [session]
  exact ⟨⟨fell.ended, fell.closed, fell.mine, fell.outgoing, fell.events, fell.target⟩, feedings⟩

/-! ## Frames to be sent -/

/-- Whether a session goes on as it was, but for what it wrote to the channel, what it
holds back and what it noted. -/
structure Kept (s s' : Session JoinedEnd) : Prop where
  phase : s'.phase = s.phase
  machine : s'.machine = s.machine
  inputs : s'.inputs = s.inputs
  world : ∃ bytes, s'.world = { s.world with peer := { s.world.peer with written := bytes } } ∧
    (Wire.WellFramed s.world.peer.written → Wire.WellFramed bytes)

theorem Kept.refl (s : Session JoinedEnd) : Kept s s :=
  ⟨rfl, rfl, rfl, s.world.peer.written, rfl, fun framed => framed⟩

theorem Kept.framed (kept : Kept s s') (framed : Wire.WellFramed s.world.peer.written) :
    Wire.WellFramed s'.world.peer.written := by
  obtain ⟨bytes, world, frames⟩ := kept.world
  rw [world]
  exact frames framed

/-- A session after it has handed a frame to its channel, which took it. -/
def wrote (s : Session JoinedEnd) (f : Frame) : Session JoinedEnd :=
  { s.note (.handed f) with world := { s.world with peer :=
    { s.world.peer with written := s.world.peer.written ++ Wire.frameBytes f } } }

theorem kept_wrote {f : Frame} (fits : f.data.length ≤ Wire.maxFrameLength) :
    Kept s (s.wrote f) :=
  ⟨rfl, rfl, rfl, _, rfl, fun framed => framed.append fits⟩

/-- What comes of handing a frame to the channel of an end. -/
theorem sendFrame_outcome (f : Frame) (w : JoinedEnd) :
    (f.data.length ≤ Wire.maxFrameLength ∧
      surroundings.sendFrame f w = (.ok (),
        { w with peer := { w.peer with written := w.peer.written ++ Wire.frameBytes f } })) ∨
      ∃ e, surroundings.sendFrame f w = (.error e, w) := by
  show (_ ∧ w.took (w.peer.send f) = _) ∨ ∃ e, w.took (w.peer.send f) = _
  unfold DirectPeer.send
  by_cases isOpen : w.peer.isOpen = true
  · by_cases fits : f.data.length ≤ Wire.maxFrameLength
    · left
      rw [if_pos isOpen, Wire.writeFrame_of_fits fits]
      exact ⟨fits, rfl⟩
    · right
      rw [if_pos isOpen, Wire.writeFrame, if_pos (Nat.lt_of_not_le fits)]
      exact ⟨_, rfl⟩
  · right
    rw [if_neg isOpen]
    exact ⟨_, rfl⟩

theorem Kept.trans {s₁ s₂ : Session JoinedEnd} (first : Kept s s₁) (second : Kept s₁ s₂) :
    Kept s s₂ := by
  obtain ⟨_, world₁, framed₁⟩ := first.world
  obtain ⟨bytes, world₂, framed₂⟩ := second.world
  rw [world₁] at framed₂
  refine ⟨second.phase.trans first.phase, second.machine.trans first.machine,
    second.inputs.trans first.inputs, bytes, ?_, fun framed => framed₂ (framed₁ framed)⟩
  rw [world₂, world₁]

theorem Kept.push {s₁ : Session JoinedEnd} (kept : Kept s s₁) (i : Handshake.Input) :
    Kept (s.push i) (s₁.push i) :=
  ⟨kept.phase, kept.machine, congrArg (· ++ [i]) kept.inputs, kept.world⟩

theorem Fell.of_kept {s₁ s₂ : Session JoinedEnd} (kept : Kept s s₁) (fell : Fell s₁ s₂) :
    Fell s s₂ := by
  obtain ⟨_, world, -⟩ := kept.world
  obtain ⟨ended, closed, mine, outgoing, events, target⟩ := fell
  rw [kept.machine] at mine
  rw [world] at outgoing events target
  exact ⟨ended, closed, mine, outgoing, events, target⟩

/-- What comes of handing a frame to the channel: it is written, or a failure waits to
be worked through. -/
theorem hand_outcome (s : Session JoinedEnd) (f : Frame) :
    Kept s (s.hand surroundings f) ∨
      ∃ reason, Kept (s.push (.failed reason)) (s.hand surroundings f) := by
  unfold hand
  rcases sendFrame_outcome f s.world with ⟨fits, sent⟩ | ⟨e, failed⟩
  · left
    rw [sent]
    exact kept_wrote fits
  · right
    rw [failed]
    exact ⟨e.message, rfl, rfl, rfl, _, rfl, fun framed => framed⟩

/-- The same for the frames that were held back. -/
theorem flush_outcome (frames : List Frame) (s : Session JoinedEnd) :
    Kept s (flush surroundings frames s) ∨
      ∃ reason, Kept (s.push (.failed reason)) (flush surroundings frames s) := by
  induction frames generalizing s with
  | nil => exact .inl ⟨rfl, rfl, rfl, _, rfl, fun framed => framed⟩
  | cons f rest ih =>
    rw [flush]
    rcases sendFrame_outcome f (s.note (.handed f)).world with ⟨fits, sent⟩ | ⟨e, failed⟩
    · rw [sent]
      have written : Kept s (s.wrote f) := kept_wrote fits
      rcases ih (s.wrote f) with kept | ⟨reason, kept⟩
      · exact .inl (written.trans kept)
      · exact .inr ⟨reason, (written.push _).trans kept⟩
    · right
      rw [failed]
      exact ⟨e.message, rfl, rfl, rfl, _, rfl, fun framed => framed⟩

/-- A session whose channel failed while it went on ends. -/
theorem settles_broken {reason : String} {s₁ : Session JoinedEnd} (alive : s.phase ≠ .ended)
    (settled : s.inputs = []) (still : s.machine.stage ≠ .closed)
    (broken : Kept (s.push (.failed reason)) s₁) :
    ∃ s', Settles surroundings s₁ [⟨s.machine, .failed reason⟩] s' ∧ Fell s s' := by
  have next : s₁.inputs = [.failed reason] := by
    rw [broken.inputs]
    exact congrArg (· ++ [Handshake.Input.failed reason]) settled
  have machine : s₁.machine = s.machine := broken.machine
  obtain ⟨s', settles, fell⟩ := settles_ending (i := .failed reason)
    (by rw [broken.phase]; exact alive) next (by rw [machine]; exact ends_failed still reason)
  rw [machine] at settles
  have fell := Fell.of_kept broken fell
  exact ⟨s', settles, fell.ended, fell.closed, fell.mine, fell.outgoing, fell.events, fell.target⟩

/-! ## What keeps or ends a session -/

/-- **What the owner of a session, its clock or a failing transport does** to it by
itself. -/
def Stimulus.IsOutside : Stimulus → Prop
  | .dialFailed _ | .streamEnded | .streamFailed _ => True
  | .channel .closed | .channel (.failed _) => True
  | .send _ | .close | .deadline => True
  | _ => False

/-- Whether a stimulus keeps a session as it is or ends it, and what it feeds is no
violation.  What the outside does ends a session only by a disturbance. -/
structure KeptOrFell (s : Session JoinedEnd) (stimulus : Stimulus) : Prop where
  outcome : Kept s (s.react surroundings stimulus) ∨
    Fell s (s.react surroundings stimulus) ∧
      (stimulus.IsOutside → ¬Undisturbed (s.fed surroundings stimulus))
  accepted : AllAccepted (s.fed surroundings stimulus)

theorem KeptOrFell.kept {stimulus : Stimulus} (outcome : KeptOrFell s stimulus)
    (outside : stimulus.IsOutside) (undisturbed : Undisturbed (s.fed surroundings stimulus)) :
    Kept s (s.react surroundings stimulus) := by
  rcases outcome.outcome with kept | ⟨-, disturbs⟩
  · exact kept
  · exact absurd undisturbed (disturbs outside)

theorem keptOrFell_of_kept {stimulus : Stimulus} (running : s.phase = .running)
    (settled : s.inputs = []) (kept : Kept s (s.take surroundings stimulus)) :
    KeptOrFell s stimulus ∧ s.react surroundings stimulus = s.take surroundings stimulus := by
  have idle : (s.take surroundings stimulus).Idle := .inr (kept.inputs.trans settled)
  obtain ⟨session, feedings⟩ := react_of_settles running (.rest idle) (Nat.zero_le _)
  refine ⟨⟨.inl (session ▸ kept), ?_⟩, session⟩
  rw [feedings]
  exact allAccepted_nil

theorem keptOrFell_of_ending {stimulus : Stimulus} {i : Handshake.Input}
    (running : s.phase = .running) (settled : s.inputs = [])
    (taken : s.take surroundings stimulus = s.push i) (ends : Ends s.machine i)
    (disturbs : stimulus.IsOutside → i.IsDisturbance) : KeptOrFell s stimulus := by
  obtain ⟨fell, feedings⟩ := react_ending running settled taken ends
  refine ⟨.inr ⟨fell, fun outside => ?_⟩, ?_⟩
  · rw [feedings]
    exact not_undisturbed List.mem_cons_self (disturbs outside)
  · rw [feedings]
    exact allAccepted_singleton ends.accepted

theorem keptOrFell_send (running : s.phase = .running) (settled : s.inputs = [])
    (still : s.machine.stage ≠ .closed) (f : Frame) : KeptOrFell s (.send f) := by
  by_cases ready : s.machine.stage = .ready
  · have taken : s.take surroundings (.send f) = s.hand surroundings f := if_pos ready
    rcases hand_outcome s f with kept | ⟨reason, broken⟩
    · exact (keptOrFell_of_kept running settled (taken ▸ kept)).1
    · have alive : s.phase ≠ .ended := by
        rw [running]
        nofun
      obtain ⟨s', settles, fell⟩ := settles_broken alive settled still broken
      have next : (s.hand surroundings f).inputs = [.failed reason] :=
        broken.inputs.trans (congrArg (· ++ [Handshake.Input.failed reason]) settled)
      rw [← taken] at settles next
      obtain ⟨session, feedings⟩ := react_of_settles running settles (one_le_due next)
      refine ⟨.inr ⟨session ▸ fell, fun _ => ?_⟩, ?_⟩
      · rw [feedings]
        exact not_undisturbed List.mem_cons_self trivial
      · rw [feedings]
        exact allAccepted_singleton (ends_failed still reason).accepted
  · have taken : s.take surroundings (.send f) = s.hold f := if_neg ready
    have kept : Kept s (s.hold f) := ⟨rfl, rfl, rfl, _, rfl, fun framed => framed⟩
    exact (keptOrFell_of_kept running settled (taken ▸ kept)).1

/-- **What the outside does to a session that runs keeps it as it is or ends it.** -/
theorem keptOrFell_outside {stimulus : Stimulus} (running : s.phase = .running)
    (settled : s.inputs = []) (still : s.machine.stage ≠ .closed) (outside : stimulus.IsOutside) :
    KeptOrFell s stimulus := by
  have unmoved : Kept s s := .refl s
  match stimulus, outside with
  | .dialFailed reason, _ =>
    have taken : s.take surroundings (.dialFailed reason) = s := rfl
    exact (keptOrFell_of_kept running settled (taken.symm ▸ unmoved)).1
  | .streamEnded, _ =>
    exact keptOrFell_of_ending running settled rfl (ends_streamClosed still) fun _ => trivial
  | .streamFailed reason, _ =>
    exact keptOrFell_of_ending running settled rfl (ends_failed still reason) fun _ => trivial
  | .channel .closed, _ =>
    exact keptOrFell_of_ending running settled rfl (ends_channelClosed still) fun _ => trivial
  | .channel (.failed reason), _ =>
    exact keptOrFell_of_ending running settled rfl (ends_failed still reason) fun _ => trivial
  | .send f, _ => exact keptOrFell_send running settled still f
  | .close, _ =>
    exact keptOrFell_of_ending running settled rfl (ends_close still) fun _ => trivial
  | .deadline, _ =>
    by_cases ready : s.machine.stage = .ready
    · have taken : s.take surroundings .deadline = s := if_pos ready
      exact (keptOrFell_of_kept running settled (taken.symm ▸ unmoved)).1
    · have taken : s.take surroundings .deadline = s.push .timeout := if_neg ready
      exact keptOrFell_of_ending running settled taken (ends_timeout still ready) fun _ => trivial

theorem keptOrFell_farewell {item : StreamItem} (running : s.phase = .running)
    (settled : s.inputs = []) (still : s.machine.stage ≠ .closed) (farewell : item.IsFarewell) :
    KeptOrFell s item.stimulus := by
  rcases farewell with rfl | rfl
  · exact keptOrFell_outside running settled still trivial
  · have taken : s.take surroundings (.text (Signal.bye).toText) = s.push (.signal .bye) := by
      rw [take, Signal.ofText?_toText]
    exact keptOrFell_of_ending running settled taken (ends_bye still) nofun

/-! ## The steps of the exchange -/

/-- The initiator's stream is there: the initiator offers. -/
theorem react_dialed {limit : Nat} (dialing : s.phase = .dialing)
    (machine : s.machine = ⟨.initiator, .connecting, false, false, none, none, [], limit⟩) :
    let fresh := DirectPeer.new .initiator s.world.peer.sessionId s.world.peer.host
    let offer := fresh.description "active"
    s.react surroundings .dialed = { s with
        machine := ⟨.initiator, .offerSent, true, true, some offer, none, [], limit⟩
        phase := .running
        published := .offerSent
        inputs := []
        world := { s.world with
          peer := fresh
          outgoing := s.world.outgoing ++ [.of (.offer offer)] } } ∧
      Smooth (s.fed surroundings .dialed) := by
  obtain ⟨m, phase, published, held, holdLimit, inputs, world, log⟩ := s
  obtain rfl : phase = .dialing := dialing
  obtain rfl : m = _ := machine
  exact ⟨rfl, smooth_cons ⟨_, rfl⟩ not_false (smooth_singleton ⟨_, rfl⟩ not_false)⟩

/-- Whether a text starts as descriptions do. -/
def Describes (description : String) : Prop :=
  "v=0".toList.isPrefixOf description.toList = true

theorem describes_description (p : DirectPeer) (part : String) : Describes (p.description part) := by
  unfold Describes DirectPeer.description
  simp only [String.toList_append, List.append_assoc]
  rfl

/-- What is left to do for a session that was sent a signal. -/
theorem take_signal (s : Session JoinedEnd) (m : Signal) :
    s.take surroundings (.text m.toText) = s.push (.signal m) := by
  rw [take, Signal.ofText?_toText]

/-- An input that arrives alone: its effects are carried out, and then what they bring. -/
theorem settles_push {ω : Type} {env : Surroundings ω} {s s' : Session ω} {i : Handshake.Input}
    {m : Handshake} {effects : List Handshake.Effect} {feedings : List Feeding}
    (running : s.phase = .running) (settled : s.inputs = [])
    (step : s.machine.step i = .ok (m, effects))
    (settles : Settles env (carryOutAll env effects { s with machine := m, published := m.stage })
      feedings s') :
    Settles env (s.push i) (⟨s.machine, i⟩ :: feedings) s' := by
  obtain ⟨h, phase, published, held, holdLimit, inputs, world, log⟩ := s
  obtain rfl : inputs = [] := settled
  rw [← process_of_step step] at settles
  exact .step (alive_of_running running) rfl settles

/-- A session that takes a stimulus for one input, of which only as many come as its
weight says. -/
theorem react_pushed {s' : Session JoinedEnd} {stimulus : Stimulus} {i : Handshake.Input}
    {feedings : List Feeding} (running : s.phase = .running) (settled : s.inputs = [])
    (taken : s.take surroundings stimulus = s.push i)
    (settles : Settles surroundings (s.push i) feedings s') (enough : feedings.length ≤ weight i) :
    s.react surroundings stimulus = s' ∧ s.fed surroundings stimulus = feedings := by
  have due : (s.push i).due = weight i := by
    rw [due, show (s.push i).inputs = [i] from congrArg (· ++ [i]) settled]
    rfl
  rw [← taken] at settles due
  exact react_of_settles running settles (due ▸ enough)

theorem react_push {s' : Session JoinedEnd} {stimulus : Stimulus} {i : Handshake.Input}
    {feedings : List Feeding} (running : s.phase = .running) (settled : s.inputs = [])
    (taken : s.take surroundings stimulus = s.push i)
    (smooth : Smooth feedings) (enough : feedings.length ≤ weight i)
    (settles : Settles surroundings (s.push i) feedings s') :
    s.react surroundings stimulus = s' ∧ Smooth (s.fed surroundings stimulus) := by
  obtain ⟨session, feeds⟩ := react_pushed running settled taken settles enough
  exact ⟨session, feeds ▸ smooth⟩

/-- A peer takes the description of the kind that it expects. -/
theorem takes_description (w : JoinedEnd) {kind : DescriptionKind} {description : String}
    (expected : kind = DirectPeer.expectedKind w.peer.role) (describes : Describes description) :
    surroundings.applyDescription kind description w =
      (.ok (), { w with peer := { w.peer with remote := some description } }) := by
  show w.took (w.peer.applyDescription kind description) = _
  rw [DirectPeer.applyDescription, if_pos ⟨expected, describes⟩]
  rfl

/-- A responder that has an offer answers, and names the port that it listens on. -/
theorem makes_answer (w : JoinedEnd)
    (answers : w.peer.role = .responder ∧ w.peer.remote.isSome = true) :
    surroundings.createAnswer w =
      (.ok (w.peer.description "passive"), { w with peer := { w.peer with
        ports := w.peer.ports ++ [w.port]
        events := w.peer.events ++ [.localCandidate (w.peer.candidate w.port)] } }) := by
  simp only [surroundings, DirectPeer.createAnswer_ok answers]
  rfl

/-- The responder receives the offer: it takes it over, listens and answers. -/
theorem react_offer {limit : Nat} {opened : Bool} {offer : String} (running : s.phase = .running)
    (settled : s.inputs = [])
    (machine : s.machine = ⟨.responder, .awaitingOffer, opened, false, none, none, [], limit⟩)
    (role : s.world.peer.role = .responder) (describes : Describes offer) :
    let answer := s.world.peer.description "passive"
    let port := s.world.port
    s.react surroundings (.text (Signal.offer offer).toText) = { s with
        machine :=
          ⟨.responder, .answerExchanged, opened, false, some answer, some offer, [], limit⟩
        published := .answerExchanged
        world := { s.world with
          peer := { s.world.peer with
            remote := some offer
            ports := s.world.peer.ports ++ [port]
            events := s.world.peer.events ++ [.localCandidate (s.world.peer.candidate port)] }
          outgoing := s.world.outgoing ++ [.of (.answer answer)] } } ∧
      Smooth (s.fed surroundings (.text (Signal.offer offer).toText)) := by
  intro answer port
  let informed : JoinedEnd := { s.world with peer := { s.world.peer with remote := some offer } }
  have takes : surroundings.applyDescription .offer offer s.world = (.ok (), informed) :=
    takes_description s.world (by rw [role]; rfl) describes
  have answers := makes_answer informed ⟨role, rfl⟩
  have offered : s.machine.step (.signal (.offer offer)) =
      .ok (⟨.responder, .awaitingOffer, opened, false, none, some offer, [], limit⟩,
        [.applyDescription .offer offer, .createAnswer]) := by
    rw [machine]
    rfl
  have described : Handshake.step
      ⟨.responder, .awaitingOffer, opened, false, none, some offer, [], limit⟩
      (.localDescription answer) =
        .ok (⟨.responder, .answerExchanged, opened, false, some answer, some offer, [], limit⟩,
          [.send (.answer answer)]) := rfl
  have smooth : Smooth [⟨s.machine, .signal (.offer offer)⟩,
      ⟨⟨.responder, .awaitingOffer, opened, false, none, some offer, [], limit⟩,
        .localDescription answer⟩] :=
    smooth_cons ⟨_, offered⟩ not_false (smooth_singleton ⟨_, described⟩ not_false)
  refine react_push running settled (take_signal s _) smooth (by decide : 2 ≤ 4)
    (settles_push running settled offered ?_)
  rw [carryOutAll_cons (by exact alive_of_running running)]
  simp only [carryOut, takes, took]
  rw [carryOutAll_cons (by exact alive_of_running running)]
  simp only [carryOut, answers, Session.described]
  refine settles_push running settled described ?_
  rw [carryOutAll_cons (by exact alive_of_running running)]
  exact .rest (.inr settled)

/-- The initiator receives the answer. -/
theorem react_answer {answer : String} (running : s.phase = .running) (settled : s.inputs = [])
    (role : s.machine.role = .initiator) (stage : s.machine.stage = .offerSent)
    (waiting : s.machine.waiting = []) (peer_role : s.world.peer.role = .initiator)
    (describes : Describes answer) :
    s.react surroundings (.text (Signal.answer answer).toText) = { s with
        machine := { s.machine with
          remoteDescription := some answer, stage := .answerExchanged, waiting := [] }
        published := .answerExchanged
        world := { s.world with peer := { s.world.peer with remote := some answer } } } ∧
      Smooth (s.fed surroundings (.text (Signal.answer answer).toText)) := by
  have expected : .answer = DirectPeer.expectedKind s.world.peer.role := by rw [peer_role]; rfl
  have takes := takes_description s.world expected describes
  have answered : s.machine.step (.signal (.answer answer)) =
      .ok ({ s.machine with
          remoteDescription := some answer, stage := .answerExchanged, waiting := [] },
        [.applyDescription .answer answer]) := by
    have still : s.machine.stage ≠ .closed := by rw [stage]; nofun
    rw [Handshake.step, Handshake.handle, Handshake.onSignal, if_neg still]
    show (s.machine.onAnswer answer).outcome = _
    rw [Handshake.onAnswer, if_pos ⟨role, stage⟩, waiting]
    rfl
  have smooth : Smooth [⟨s.machine, .signal (.answer answer)⟩] :=
    smooth_singleton ⟨_, answered⟩ not_false
  refine react_push running settled (take_signal s _) smooth (by decide : 1 ≤ 2)
    (settles_push running settled answered ?_)
  rw [carryOutAll_cons (by exact alive_of_running running)]
  simp only [carryOut, takes, took]
  exact .rest (.inr settled)

/-- A candidate changes at most where the channel dials. -/
theorem applyCandidate_outcome (c : Candidate) (w : JoinedEnd) :
    ∃ dialing target, (surroundings.applyCandidate c w).2 =
      { w with peer := { w.peer with dialing := dialing, target := target } } := by
  show ∃ dialing target, (w.took (w.peer.applyCandidate c)).2 = _
  unfold DirectPeer.applyCandidate
  by_cases passive : w.peer.role = .responder ∨ w.peer.dialing = true
  · rw [if_pos passive]
    exact ⟨_, _, rfl⟩
  · rw [if_neg passive]
    cases Candidate.endpointOf c.line with
    | ok place => exact ⟨_, _, rfl⟩
    | error fault => exact ⟨_, _, rfl⟩

/-- A candidate arrives when both descriptions are known. -/
theorem react_candidate {c : Candidate} (running : s.phase = .running) (settled : s.inputs = [])
    (stage : s.machine.stage = .answerExchanged ∨ s.machine.stage = .ready) :
    s.react surroundings (.text (Signal.candidate c).toText) =
        { s with
          published := s.machine.stage
          world := (surroundings.applyCandidate c s.world).2 } ∧
      Smooth (s.fed surroundings (.text (Signal.candidate c).toText)) := by
  have still : s.machine.stage ≠ .closed := by
    rcases stage with stage | stage <;> rw [stage] <;> nofun
  have applied : s.machine.step (.signal (.candidate c)) = .ok (s.machine, [.applyCandidate c]) := by
    rw [Handshake.step, Handshake.handle, Handshake.onSignal, if_neg still]
    exact congrArg Handshake.Turn.outcome (if_pos stage)
  have smooth : Smooth [⟨s.machine, .signal (.candidate c)⟩] :=
    smooth_singleton ⟨_, applied⟩ not_false
  refine react_push running settled (take_signal s _) smooth (by decide : 1 ≤ 1)
    (settles_push running settled applied ?_)
  rw [carryOutAll_cons (by exact alive_of_running running)]
  exact .rest (.inr settled)

/-- The channel names a candidate once the session has described itself: the other end
is told. -/
theorem react_localCandidate {c : Candidate} (running : s.phase = .running) (settled : s.inputs = [])
    (still : s.machine.stage ≠ .closed) (described : s.machine.localDescription ≠ none) :
    s.react surroundings (.channel (.localCandidate c)) =
        { s with
          published := s.machine.stage
          world := { s.world with outgoing := s.world.outgoing ++ [.of (.candidate c)] } } ∧
      Smooth (s.fed surroundings (.channel (.localCandidate c))) := by
  have told : s.machine.step (.localCandidate c) = .ok (s.machine, [.send (.candidate c)]) := by
    rw [Handshake.step, Handshake.handle, Handshake.onLocalCandidate, if_neg still,
      if_neg described]
    rfl
  have smooth : Smooth [⟨s.machine, .localCandidate c⟩] := smooth_singleton ⟨_, told⟩ not_false
  refine react_push running settled rfl smooth (by decide : 1 ≤ 2)
    (settles_push running settled told ?_)
  rw [carryOutAll_cons (by exact alive_of_running running)]
  exact .rest (.inr settled)

/-- The channel opens once both descriptions are known: the session is ready, unless
the channel fails to take the frames that were held. -/
theorem react_opened (running : s.phase = .running) (settled : s.inputs = [])
    (stage : s.machine.stage = .answerExchanged) :
    (Kept { s with machine := { s.machine with stage := .ready } }
        (s.react surroundings (.channel .opened)) ∨
      Fell s (s.react surroundings (.channel .opened)) ∧
        ¬Undisturbed (s.fed surroundings (.channel .opened))) ∧
      AllAccepted (s.fed surroundings (.channel .opened)) := by
  let ready : Session JoinedEnd := { s with machine := { s.machine with stage := .ready } }
  have opens : s.machine.step .channelOpen = .ok (ready.machine, [.ready]) := by
    rw [Handshake.step, Handshake.handle, Handshake.onChannelOpen, stage]
    rfl
  have first : Feeding.Accepted ⟨s.machine, .channelOpen⟩ := ⟨_, opens⟩
  have taken : s.take surroundings (.channel .opened) = s.push .channelOpen := rfl
  let told : Session JoinedEnd := { ready with published := .ready }.note .ready
  have flushes : ∀ {feedings s'}, Settles surroundings (flush surroundings s.held told) feedings s' →
      Settles surroundings (s.push .channelOpen) (⟨s.machine, .channelOpen⟩ :: feedings) s' := by
    intro feedings s' settles
    refine settles_push running settled opens ?_
    rw [carryOutAll_cons (by exact alive_of_running running)]
    exact settles
  rcases flush_outcome s.held told with kept | ⟨reason, broken⟩
  · have idle : (flush surroundings s.held told).Idle := .inr (kept.inputs.trans settled)
    obtain ⟨session, smooth⟩ := react_push running settled taken (smooth_singleton first not_false)
      (by decide : 1 ≤ 2) (flushes (.rest idle))
    refine ⟨.inl ?_, smooth.accepted⟩
    rw [session]
    exact ⟨kept.phase, kept.machine, kept.inputs, kept.world⟩
  · have still : told.machine.stage ≠ .closed := nofun
    obtain ⟨s', settles, fell⟩ := settles_broken (s := told) (alive_of_running running) settled still broken
    obtain ⟨session, feeds⟩ := react_pushed running settled taken (flushes settles) (by decide : 2 ≤ 2)
    refine ⟨.inr ⟨?_, ?_⟩, ?_⟩
    · rw [session]
      exact ⟨fell.ended, fell.closed, fell.mine, fell.outgoing, fell.events, fell.target⟩
    · rw [feeds]
      exact not_undisturbed (List.mem_cons_of_mem _ List.mem_cons_self) trivial
    · rw [feeds]
      exact allAccepted_cons first (allAccepted_singleton (ends_failed still reason).accepted)

/-- A channel that opens again changes nothing. -/
theorem react_opened_again (running : s.phase = .running) (settled : s.inputs = [])
    (stage : s.machine.stage = .ready) :
    s.react surroundings (.channel .opened) = { s with published := s.machine.stage } ∧
      Smooth (s.fed surroundings (.channel .opened)) := by
  have taken : s.take surroundings (.channel .opened) = s.push .channelOpen := rfl
  have opens : s.machine.step .channelOpen = .ok (s.machine, []) := by
    rw [Handshake.step, Handshake.handle, Handshake.onChannelOpen, stage]
    rfl
  have first : Feeding.Accepted ⟨s.machine, .channelOpen⟩ := ⟨_, opens⟩
  exact react_push running settled taken (smooth_singleton first not_false) (by decide : 1 ≤ 2)
    (settles_push running settled opens (.rest (.inr settled)))

theorem keptOrFell_opened_again (running : s.phase = .running) (settled : s.inputs = [])
    (stage : s.machine.stage = .ready) : KeptOrFell s (.channel .opened) := by
  obtain ⟨session, smooth⟩ := react_opened_again running settled stage
  exact ⟨.inl (session ▸ ⟨rfl, rfl, rfl, _, rfl, fun framed => framed⟩), smooth.accepted⟩

/-! ## Sessions that have ended or dial -/

theorem keptOrFell_ended (ended : s.phase = .ended) (stimulus : Stimulus) :
    s.react surroundings stimulus = s ∧ KeptOrFell s stimulus := by
  have session : s.react surroundings stimulus = s := by
    rw [react, ended]
  have feedings : s.fed surroundings stimulus = [] := by
    rw [fed, ended]
  refine ⟨session, .inl (session.symm ▸ .refl s), ?_⟩
  rw [feedings]
  exact allAccepted_nil

theorem fell_of_abandon {i : Handshake.Input} (ends : Ends s.machine i) : Fell s (s.abandon i) := by
  obtain ⟨h, reason, farewell, step, still, mine⟩ := ends
  rw [Handshake.endWith, if_neg still] at step
  unfold abandon Handshake.feed
  rw [Handshake.handle_of_step step]
  exact ⟨rfl, rfl, mine, ⟨[], (List.append_nil _).symm, nofun⟩, rfl, fun there => there⟩

theorem keptOrFell_dialing_of_kept {stimulus : Stimulus} (dialing : s.phase = .dialing)
    (kept : Kept s (s.reactDialing surroundings stimulus))
    (unfed : s.fedDialing surroundings stimulus = []) : KeptOrFell s stimulus := by
  have session : s.react surroundings stimulus = s.reactDialing surroundings stimulus := by
    rw [react, dialing]
  have feedings : s.fed surroundings stimulus = [] := by
    rw [fed, dialing]
    exact unfed
  refine ⟨.inl (session ▸ kept), ?_⟩
  rw [feedings]
  exact allAccepted_nil

/-- What the outside does to a session that dials keeps it as it is or ends it. -/
theorem keptOrFell_dialing {stimulus : Stimulus} (dialing : s.phase = .dialing)
    (stage : s.machine.stage = .connecting) (outside : stimulus.IsOutside) :
    KeptOrFell s stimulus := by
  have still : s.machine.stage ≠ .closed := by
    rw [stage]
    nofun
  have session : s.react surroundings stimulus = s.reactDialing surroundings stimulus := by
    rw [react, dialing]
  have feedings : s.fed surroundings stimulus = s.fedDialing surroundings stimulus := by
    rw [fed, dialing]
  have ending : ∀ {i}, s.reactDialing surroundings stimulus = s.abandon i →
      s.fedDialing surroundings stimulus = [⟨s.machine, i⟩] → Ends s.machine i →
      i.IsDisturbance → KeptOrFell s stimulus := by
    intro i abandons feeds ends disturbs
    refine ⟨.inr ⟨?_, fun _ => ?_⟩, ?_⟩
    · rw [session, abandons]
      exact fell_of_abandon ends
    · rw [feedings, feeds]
      exact not_undisturbed List.mem_cons_self disturbs
    · rw [feedings, feeds]
      exact allAccepted_singleton ends.accepted
  have unmoved : Kept s s := .refl s
  match stimulus, outside with
  | .dialFailed reason, _ => exact ending rfl rfl (ends_failed still reason) trivial
  | .deadline, _ =>
    exact ending rfl rfl (ends_timeout still (by rw [stage]; nofun)) trivial
  | .close, _ => exact ending rfl rfl (ends_close still) trivial
  | .send f, _ =>
    have kept : Kept s (s.hold f) := ⟨rfl, rfl, rfl, _, rfl, fun framed => framed⟩
    exact keptOrFell_dialing_of_kept dialing kept rfl
  | .streamEnded, _ => exact keptOrFell_dialing_of_kept dialing unmoved rfl
  | .streamFailed reason, _ => exact keptOrFell_dialing_of_kept dialing unmoved rfl
  | .channel .closed, _ => exact keptOrFell_dialing_of_kept dialing unmoved rfl
  | .channel (.failed reason), _ => exact keptOrFell_dialing_of_kept dialing unmoved rfl

/-- Whether a session has worked through everything it was given. -/
inductive Poised (s : Session JoinedEnd) : Prop
  | ended (phase : s.phase = .ended)
  | dialing (phase : s.phase = .dialing) (stage : s.machine.stage = .connecting)
  | running (phase : s.phase = .running) (settled : s.inputs = [])
      (still : s.machine.stage ≠ .closed)

theorem Poised.outside (poised : s.Poised) {stimulus : Stimulus} (outside : stimulus.IsOutside) :
    KeptOrFell s stimulus := by
  cases poised with
  | ended stopped => exact (keptOrFell_ended stopped stimulus).2
  | dialing dials stage => exact keptOrFell_dialing dials stage outside
  | running runs settled still => exact keptOrFell_outside runs settled still outside

/-- A frame is noted at most. -/
theorem Poised.react_frame (poised : s.Poised) (f : Frame) :
    KeptOrFell s (.channel (.frame f)) ∧
      Kept s (s.react surroundings (.channel (.frame f))) := by
  have kept : Kept s (s.note (.received f)) := ⟨rfl, rfl, rfl, _, rfl, fun framed => framed⟩
  cases poised with
  | ended stopped =>
    obtain ⟨session, outcome⟩ := keptOrFell_ended stopped (.channel (.frame f))
    exact ⟨outcome, session.symm ▸ .refl s⟩
  | dialing dials _ =>
    have session : s.react surroundings (.channel (.frame f)) =
        s.reactDialing surroundings (.channel (.frame f)) := by
      rw [react, dials]
    exact ⟨keptOrFell_dialing_of_kept dials (.refl s) rfl, session.symm ▸ .refl s⟩
  | running runs settled _ =>
    obtain ⟨outcome, session⟩ := keptOrFell_of_kept runs settled
      (show Kept s (s.take surroundings (.channel (.frame f))) from kept)
    exact ⟨outcome, session.symm ▸ kept⟩

theorem Poised.farewell (poised : s.Poised) {item : StreamItem} (farewell : item.IsFarewell) :
    KeptOrFell s item.stimulus := by
  cases poised with
  | ended stopped => exact (keptOrFell_ended stopped _).2
  | dialing dials _ =>
    rcases farewell with rfl | rfl <;> exact keptOrFell_dialing_of_kept dials (.refl s) rfl
  | running runs settled still => exact keptOrFell_farewell runs settled still farewell

theorem Poised.dialed (poised : s.Poised) (apart : s.phase ≠ .dialing) : KeptOrFell s .dialed := by
  cases poised with
  | ended stopped => exact (keptOrFell_ended stopped _).2
  | dialing dials _ => exact absurd dials apart
  | running runs settled _ =>
    have taken : s.take surroundings .dialed = s := rfl
    exact (keptOrFell_of_kept runs settled (taken.symm ▸ .refl s)).1

end Session

end TopicMesh
