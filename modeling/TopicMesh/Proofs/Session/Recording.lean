import TopicMesh.Proofs.Session.Feeding

/-!
# Surroundings that record what was sent

The log of a session says which frames were handed to the channel, but not what came of
it.  `recorded` surroundings do what given ones do, and also write down each frame with
its outcome.  Nothing depends on what they write: a session in recorded surroundings,
the record forgotten, is the session in the given ones (`forget_run`).
-/

namespace TopicMesh

/-- The frames that were handed to a channel, oldest first, each with its outcome. -/
abbrev Record := List (Frame × Except Error Unit)

/-- What an operation came to, next to a record. -/
def beside {α ω : Type} (outcome : α × ω) (record : Record) : α × ω × Record :=
  (outcome.1, outcome.2, record)

/-- The surroundings with a record of the frames that were sent. -/
def Surroundings.recorded {ω : Type} (env : Surroundings ω) : Surroundings (ω × Record) where
  openChannel role w := (env.openChannel role w.1, w.2)
  createOffer w := beside (env.createOffer w.1) w.2
  createAnswer w := beside (env.createAnswer w.1) w.2
  applyDescription kind description w := beside (env.applyDescription kind description w.1) w.2
  applyCandidate c w := beside (env.applyCandidate c w.1) w.2
  sendFrame f w :=
    let outcome := env.sendFrame f w.1
    beside outcome (w.2 ++ [(f, outcome.1)])
  closeChannel w := (env.closeChannel w.1, w.2)
  sendSignal m w := beside (env.sendSignal m w.1) w.2
  closeStream w := (env.closeStream w.1, w.2)

namespace Session

variable {ω : Type} {env : Surroundings ω}

/-- A session without the record. -/
def forget (s : Session (ω × Record)) : Session ω :=
  ⟨s.machine, s.phase, s.published, s.held, s.holdLimit, s.inputs, s.world.1, s.log⟩

theorem forget_took {α : Type} (s : Session (ω × Record)) (outcome : Except Error α × ω)
    (record : Record) : (s.took (beside outcome record)).forget = s.forget.took outcome := by
  obtain ⟨_ | _, w⟩ := outcome <;> rfl

theorem forget_described (s : Session (ω × Record)) (outcome : Except Error String × ω)
    (record : Record) :
    (s.described (beside outcome record)).forget = s.forget.described outcome := by
  obtain ⟨_ | _, w⟩ := outcome <;> rfl

theorem recorded_sendFrame {f : Frame} {w : ω × Record} {outcome : Except Error Unit × ω}
    (sent : env.sendFrame f w.1 = outcome) :
    env.recorded.sendFrame f w = (outcome.1, outcome.2, w.2 ++ [(f, outcome.1)]) :=
  sent ▸ rfl

theorem forget_flush (frames : List Frame) (s : Session (ω × Record)) :
    (flush env.recorded frames s).forget = flush env frames s.forget := by
  induction frames generalizing s with
  | nil => rfl
  | cons f rest ih =>
    rcases sent : env.sendFrame f s.world.1 with ⟨e | u, w⟩
    · rw [flush_of_error (recorded_sendFrame sent), flush_of_error (s := s.forget) sent]
      rfl
    · rw [flush_of_ok (recorded_sendFrame sent), flush_of_ok (s := s.forget) sent, ih]
      rfl

theorem forget_carryOut (s : Session (ω × Record)) (e : Handshake.Effect) :
    (s.carryOut env.recorded e).forget = s.forget.carryOut env e := by
  cases e with
  | send m => exact forget_took ..
  | createOffer => exact forget_described ..
  | createAnswer => exact forget_described ..
  | applyDescription kind description => exact forget_took ..
  | applyCandidate c => rfl
  | ready => exact forget_flush s.held (s.note .ready)
  | closed reason => rfl

theorem forget_carryOutAll (effects : List Handshake.Effect) (s : Session (ω × Record)) :
    (carryOutAll env.recorded effects s).forget = carryOutAll env effects s.forget := by
  induction effects generalizing s with
  | nil => rfl
  | cons e rest ih =>
    have same : s.forget.phase = s.phase := rfl
    rw [carryOutAll, carryOutAll, same]
    cases s.phase with
    | ended => rfl
    | dialing | running => rw [ih, forget_carryOut]

theorem forget_process (s : Session (ω × Record)) (i : Handshake.Input) :
    (s.process env.recorded i).forget = s.forget.process env i := by
  have same : s.forget.machine = s.machine := rfl
  rw [process, process, same]
  obtain ⟨m, _ | effects⟩ := s.machine.handle i
  · rfl
  · exact forget_carryOutAll effects _

theorem forget_pump (n : Nat) (s : Session (ω × Record)) :
    (s.pump env.recorded n).forget = s.forget.pump env n := by
  induction n generalizing s with
  | zero => rfl
  | succ n ih =>
    have phase : s.forget.phase = s.phase := rfl
    have inputs : s.forget.inputs = s.inputs := rfl
    rw [pump, pump, phase, inputs]
    cases s.phase with
    | ended => rfl
    | dialing | running =>
      cases s.inputs with
      | nil => rfl
      | cons i rest =>
        dsimp only
        rw [ih, forget_process]
        rfl

theorem forget_settle (s : Session (ω × Record)) :
    (s.settle env.recorded).forget = s.forget.settle env :=
  forget_pump _ s

theorem forget_take (s : Session (ω × Record)) (stimulus : Stimulus) :
    (s.take env.recorded stimulus).forget = s.forget.take env stimulus := by
  have same : s.forget.machine = s.machine := rfl
  cases stimulus with
  | text t =>
    simp only [take]
    split <;> rfl
  | channel e => cases e <;> rfl
  | send f =>
    simp only [take, same]
    split
    · exact forget_took (s.note (.handed f)) (env.sendFrame f s.world.1) _
    · rfl
  | deadline =>
    simp only [take, same]
    split <;> rfl
  | _ => rfl

theorem forget_react (s : Session (ω × Record)) (stimulus : Stimulus) :
    (s.react env.recorded stimulus).forget = s.forget.react env stimulus := by
  have same : s.forget.phase = s.phase := rfl
  rw [react, react, same]
  cases s.phase with
  | ended => rfl
  | running =>
    dsimp only
    rw [forget_settle, forget_take]
  | dialing =>
    cases stimulus with
    | dialed => exact forget_settle _
    | _ => rfl

/-- **A session in recorded surroundings**, the record forgotten, is the session in the
given ones. -/
theorem forget_run (s : Session (ω × Record)) (stimuli : List Stimulus) :
    (s.run env.recorded stimuli).forget = s.forget.run env stimuli := by
  induction stimuli generalizing s with
  | nil => rfl
  | cons stimulus rest ih =>
    show ((s.react env.recorded stimulus).run env.recorded rest).forget =
      (s.forget.react env stimulus).run env rest
    rw [ih, forget_react]

variable (env)

/-- The session of an end, before anything happens to it. -/
def opening (limits : SessionLimits) (world : ω) : Role → Session ω
  | .initiator => connect limits world
  | .responder => accept env limits world

theorem forget_opening (limits : SessionLimits) (world : ω) (record : Record) (role : Role) :
    (opening env.recorded limits (world, record) role).forget = opening env limits world role := by
  cases role with
  | initiator => rfl
  | responder => exact forget_settle _

end Session

end TopicMesh
