import TopicMesh.Settings
import TopicMesh.Proofs.Session.FrameOrder
import TopicMesh.Proofs.Session.LifeCycle

/-!
# How many frames a session holds

Frames that are to be sent before a session is ready are held, and settings say how many
may be.  Only taking such a frame makes a session hold more (`holdsBack?`); at every other
moment of its life it holds the last of what it held before (`Eases`, `Ebbs`).  A frame
takes the place of the oldest one if there is no room.

So a session that may hold one frame or more never holds more than it may.  One that may
hold none still holds a frame: the newest is added after the oldest was dropped, and there
was none to drop.  `held_within_limit_iff` says of every life which of the two it is.
-/

namespace TopicMesh.Session

open Handshake (Effect Input)

variable {ω : Type} {env : Surroundings ω} {s s' s'' : Session ω}

/-! ## Holding no more than before -/

/-- Whether a session holds the last of what another one holds, by the same limit. -/
structure Eases (s s' : Session ω) : Prop where
  limit : s'.holdLimit = s.holdLimit
  held : s'.held <:+ s.held

theorem Eases.refl (s : Session ω) : Eases s s :=
  ⟨rfl, List.suffix_refl _⟩

theorem Eases.trans (first : Eases s s') (second : Eases s' s'') : Eases s s'' :=
  ⟨second.limit.trans first.limit, second.held.trans first.held⟩

theorem eases_took {α : Type} (s : Session ω) (outcome : Except Error α × ω) :
    Eases s (s.took outcome) := by
  obtain ⟨_ | _, w⟩ := outcome <;> exact { Eases.refl s with }

theorem eases_described (s : Session ω) (outcome : Except Error String × ω) :
    Eases s (s.described outcome) := by
  obtain ⟨_ | _, w⟩ := outcome <;> exact { Eases.refl s with }

/-- What could not be sent of the held frames stays. -/
theorem eases_flush {frames : List Frame} {s : Session ω} (within : frames <:+ s.held) :
    Eases s (flush env frames s) := by
  induction frames generalizing s with
  | nil => exact ⟨rfl, List.nil_suffix⟩
  | cons f rest ih =>
    have shorter : rest <:+ s.held := (List.suffix_cons f rest).trans within
    rcases sent : env.sendFrame f s.world with ⟨e | _, w⟩
    · rw [flush_of_error sent]
      exact ⟨rfl, shorter⟩
    · rw [flush_of_ok sent]
      have further := ih (s := { s.note (.handed f) with world := w }) shorter
      exact ⟨further.limit, further.held⟩

variable (env) in
theorem eases_carryOut (s : Session ω) (e : Effect) : Eases s (s.carryOut env e) := by
  cases e with
  | send m => exact eases_took ..
  | createOffer => exact eases_described ..
  | createAnswer => exact eases_described ..
  | applyDescription kind description => exact eases_took ..
  | applyCandidate c => exact { Eases.refl s with }
  | ready =>
    have flushed : Eases (s.note .ready) (flush env s.held (s.note .ready)) :=
      eases_flush (List.suffix_refl _)
    exact ⟨flushed.limit, flushed.held⟩
  | closed reason => exact ⟨rfl, List.nil_suffix⟩

/-! ## Moments in which no frame is held back -/

/-- Whether a session and all moments on the way to it hold the last of what was held. -/
structure Ebbs (s : Session ω) (moments : List (Session ω)) (s' : Session ω) : Prop where
  each : ∀ m ∈ moments, Eases s m
  last : Eases s s'

theorem Ebbs.rest (s : Session ω) : Ebbs s [] s :=
  ⟨List.forall_mem_nil _, .refl s⟩

theorem Ebbs.append {ms later : List (Session ω)} (first : Ebbs s ms s')
    (second : Ebbs s' later s'') : Ebbs s (ms ++ later) s'' where
  each := List.forall_mem_append.2
    ⟨first.each, fun m there => first.last.trans (second.each m there)⟩
  last := first.last.trans second.last

theorem Ebbs.one (eases : Eases s s') : Ebbs s [s'] s' :=
  ⟨List.forall_mem_singleton.2 eases, eases⟩

theorem ebbs_finishing (s : Session ω) (reason : CloseReason) :
    Ebbs s (s.finishing reason) (s.finish reason) := by
  have empty {m : Session ω} (limit : m.holdLimit = s.holdLimit) (none : m.held = []) :
      Eases s m := ⟨limit, none ▸ List.nil_suffix⟩
  refine ⟨?_, empty rfl rfl⟩
  simp only [finishing, List.mem_cons, List.not_mem_nil, or_false]
  rintro m (rfl | rfl | rfl) <;> exact empty rfl rfl

variable (env) in
theorem ebbs_carryingOut (s : Session ω) (e : Effect) :
    Ebbs s (s.carryingOut env e) (s.carryOut env e) := by
  have last := eases_carryOut env s e
  cases e with
  | ready =>
    have noted : Eases s (s.note .ready) := { Eases.refl s with }
    exact ⟨List.forall_mem_cons.2 ⟨noted, List.forall_mem_singleton.2 last⟩, last⟩
  | closed reason =>
    have shut : Eases s (s.shut env) := { Eases.refl s with }
    have parted : Eases (s.shut env) (s.parted env) := { Eases.refl (s.shut env) with }
    exact (Ebbs.one shut).append
      ((Ebbs.one parted).append (ebbs_finishing (s.parted env) reason))
  | _ => exact .one last

variable (env) in
theorem ebbs_carryingOutAll (effects : List Effect) (s : Session ω) :
    Ebbs s (carryingOutAll env effects s) (carryOutAll env effects s) := by
  induction effects generalizing s with
  | nil => exact .rest s
  | cons e rest ih =>
    by_cases ended : s.phase = .ended
    · rw [carryingOutAll_of_ended ended, carryOutAll_of_ended ended]
      exact .rest s
    · rw [carryingOutAll_cons ended, carryOutAll_cons ended]
      exact (ebbs_carryingOut env s e).append (ih _)

variable (env) in
theorem ebbs_processing (s : Session ω) (i : Input) :
    Ebbs s (s.processing env i) (s.process env i) := by
  unfold processing process
  obtain ⟨m, _ | effects⟩ := s.machine.handle i
  · have moved : Eases s { s with machine := m } := { Eases.refl s with }
    exact .one moved
  · let moved : Session ω := { s with machine := m, published := m.stage }
    have on : Eases s moved := { Eases.refl s with }
    exact (Ebbs.one on).append (ebbs_carryingOutAll env effects moved)

variable (env) in
theorem ebbs_pumping (n : Nat) (s : Session ω) : Ebbs s (pumping env n s) (s.pump env n) := by
  induction n generalizing s with
  | zero => exact .rest s
  | succ n ih =>
    obtain idle | ⟨i, rest, alive, next⟩ := s.idle_or_next
    · rw [pumping_of_idle idle, (pump_of_idle idle _).1]
      exact .rest s
    · rw [pumping_of_next alive next, (pump_of_next alive next n).1]
      let taken : Session ω := { s with inputs := rest }
      have on : Eases s taken := { Eases.refl s with }
      exact (Ebbs.one on).append ((ebbs_processing env taken i).append (ih _))

theorem ebbs_abandoning (s : Session ω) (i : Input) : Ebbs s (s.abandoning i) (s.abandon i) := by
  let moved : Session ω := { s with machine := (s.machine.feed i).1 }
  have on : Eases s moved := { Eases.refl s with }
  exact (Ebbs.one on).append (ebbs_finishing moved _)

/-! ## What a stimulus does -/

/-- The frame that a session takes and holds back. -/
def holdsBack? (s : Session ω) : Stimulus → Option Frame
  | .send f =>
    match s.phase with
    | .ended => none
    | .dialing => some f
    | .running => if s.machine.stage = .ready then none else some f
  | _ => none

variable (env) in
theorem eases_take (stimulus : Stimulus) (running : s.phase = .running)
    (none : s.holdsBack? stimulus = none) : Eases s (s.take env stimulus) := by
  cases stimulus with
  | text t =>
    rw [take]
    split <;> exact { Eases.refl s with }
  | channel e => cases e <;> exact { Eases.refl s with }
  | send f =>
    rw [take]
    split
    · have handed := eases_took (s.note (.handed f)) (env.sendFrame f s.world)
      exact ⟨handed.limit, handed.held⟩
    · next unready => simp [holdsBack?, running, unready] at none
  | deadline =>
    rw [take]
    split <;> exact { Eases.refl s with }
  | _ => exact { Eases.refl s with }

variable (env) in
/-- **A session that holds no frame back** holds no more than before. -/
theorem ebbs_react {stimulus : Stimulus} (none : s.holdsBack? stimulus = none) :
    Ebbs s (s.reacting env stimulus) (s.react env stimulus) := by
  unfold reacting react
  cases phase : s.phase with
  | ended => exact .rest s
  | running =>
    have taken := eases_take env stimulus phase none
    exact (Ebbs.one taken).append (ebbs_pumping env _ _)
  | dialing =>
    cases stimulus with
    | dialed =>
      have opened : Eases s (s.opened env) := { Eases.refl s with }
      exact (Ebbs.one opened).append (ebbs_pumping env (s.opened env).due (s.opened env))
    | dialFailed reason => exact ebbs_abandoning s (.failed reason)
    | deadline => exact ebbs_abandoning s .timeout
    | close => exact ebbs_abandoning s .close
    | send f => simp [holdsBack?, phase] at none
    | _ => exact .rest s

variable (env) in
/-- **A session that holds a frame back** holds no more than with it. -/
theorem ebbs_react_hold {stimulus : Stimulus} {f : Frame} (back : s.holdsBack? stimulus = some f) :
    s.hold f ∈ s.reacting env stimulus ∧
      Ebbs (s.hold f) (s.reacting env stimulus) (s.react env stimulus) := by
  cases stimulus with
  | send g =>
    unfold reacting react
    unfold holdsBack? at back
    cases phase : s.phase with
    | ended =>
      rw [phase] at back
      cases back
    | dialing =>
      rw [phase] at back
      cases back
      exact ⟨List.mem_singleton_self _, .one (.refl _)⟩
    | running =>
      rw [phase] at back
      dsimp only at back
      split at back
      · cases back
      next unready =>
      cases back
      have taken : s.take env (.send f) = s.hold f := if_neg unready
      rw [taken]
      exact ⟨List.mem_cons_self, (Ebbs.one (.refl _)).append (ebbs_pumping env _ _)⟩
  | _ => cases back

/-- A session that is alive has become ready just if its machine is. -/
theorem Alive.notYetReady_iff (alive : Alive s) :
    s.notYetReady = true ↔ s.machine.stage ≠ .ready := by
  have told : .ready ∈ s.log ↔ .ready ∈ reports s.log := by simp [reports, Occurrence.isReport]
  unfold notYetReady wasReady
  rw [Bool.not_eq_true', decide_eq_false_iff_not, told, alive.reported]
  split <;> simp_all

/-- Between two stimuli, a session holds a frame back just if it takes it and has not become
ready. -/
theorem toList_holdsBack? {world : ω} {first : Session ω} {later : List (Session ω)}
    {fed : List Feeding} (lives : Lives env world first later fed s) (stimulus : Stimulus) :
    (s.holdsBack? stimulus).toList = s.takesWhen notYetReady stimulus := by
  by_cases sends : ∃ f, stimulus = .send f
  case neg =>
    rw [takesWhen_of_not_send fun f same => sends ⟨f, same⟩]
    cases stimulus with
    | send f => exact absurd ⟨f, rfl⟩ sends
    | _ => rfl
  obtain ⟨f, rfl⟩ := sends
  have gone (ended : Over fed s) : (s.holdsBack? (.send f)).toList = s.takesWhen notYetReady (.send f) := by
    rw [takesWhen_of_ended ended.phase, holdsBack?, ended.phase]
    rfl
  cases lives.condition with
  | abandoned ended => exact gone ended
  | departed ended => exact gone ended
  | dialing alive dialing limit machine =>
    have unready : s.notYetReady = true := alive.notYetReady_iff.2 (machine ▸ nofun)
    simp [holdsBack?, takesWhen, takes?, dialing, unready]
  | running alive running =>
    by_cases ready : s.machine.stage = .ready
    · have told : s.notYetReady = false :=
        Bool.eq_false_iff.2 fun unready => alive.notYetReady_iff.1 unready ready
      simp [holdsBack?, takesWhen, running, ready, told]
    · have unready : s.notYetReady = true := alive.notYetReady_iff.2 ready
      simp [holdsBack?, takesWhen, takes?, running, ready, unready]

/-! ## A whole life -/

/-- Whether a session with a certain limit holds no more than some number of frames. -/
structure Holds (limit n : Nat) (s : Session ω) : Prop where
  limit_eq : s.holdLimit = limit
  held : s.held.length ≤ n

variable {limit n : Nat}

theorem Holds.ease (holds : Holds limit n s) (eases : Eases s s') : Holds limit n s' :=
  ⟨eases.limit.trans holds.limit_eq, eases.held.length_le.trans holds.held⟩

/-- One more frame finds room, or takes the place of the oldest one; but for one frame there
has to be room. -/
theorem Holds.hold (holds : Holds limit n s) (room : max limit 1 ≤ n) (f : Frame) :
    Holds limit n (s.hold f) := by
  obtain ⟨limit_eq, held⟩ := holds
  refine ⟨limit_eq, ?_⟩
  show ((if s.holdLimit ≤ s.held.length then s.held.drop 1 else s.held) ++ [f]).length ≤ n
  rw [limit_eq, List.length_append, List.length_singleton]
  split
  · rw [List.length_drop]
    omega
  · omega

theorem Ebbs.holds {ms : List (Session ω)} (ebbs : Ebbs s ms s') (holds : Holds limit n s) :
    (∀ m ∈ ms, Holds limit n m) ∧ Holds limit n s' :=
  ⟨fun m there => holds.ease (ebbs.each m there), holds.ease ebbs.last⟩

section Life

variable {world : ω} {first : Session ω} {later : List (Session ω)} {fed : List Feeding}

/-- **One stimulus** keeps a bound, if there is room for a frame or none is held back. -/
theorem holds_react (lives : Lives env world first later fed s) (holds : Holds limit n s)
    {stimulus : Stimulus} (room : max limit 1 ≤ n ∨ s.takesWhen notYetReady stimulus = []) :
    (∀ m ∈ s.reacting env stimulus, Holds limit n m) ∧ Holds limit n (s.react env stimulus) := by
  rw [← toList_holdsBack? lives] at room
  cases back : s.holdsBack? stimulus with
  | none => exact (ebbs_react env back).holds holds
  | some f =>
    rw [back] at room
    have enough : max limit 1 ≤ n := room.resolve_right (List.cons_ne_nil f [])
    exact (ebbs_react_hold env back).2.holds (holds.hold enough f)

/-- **All stimuli** keep a bound, if there is room for a frame or none is held back. -/
theorem holds_moments (lives : Lives env world first later fed s) (holds : Holds limit n s)
    {stimuli : List Stimulus} (room : max limit 1 ≤ n ∨ takenWhen env notYetReady s stimuli = []) :
    ∀ m ∈ moments env s stimuli, Holds limit n m := by
  induction stimuli generalizing s later fed with
  | nil => exact List.forall_mem_nil _
  | cons stimulus rest ih =>
    rw [takenWhen, List.append_eq_nil_iff] at room
    obtain ⟨each, last⟩ := holds_react lives holds (room.imp_right And.left)
    exact List.forall_mem_append.2 ⟨each, ih (lives.react stimulus) last (room.imp_right And.right)⟩

/-- A frame that is taken before the session is ready is held at some moment. -/
theorem exists_holding (lives : Lives env world first later fed s) {stimuli : List Stimulus}
    (taken : takenWhen env notYetReady s stimuli ≠ []) :
    ∃ m ∈ moments env s stimuli, m.held ≠ [] := by
  induction stimuli generalizing s later fed with
  | nil => exact absurd rfl taken
  | cons stimulus rest ih =>
    rw [takenWhen, ← toList_holdsBack? lives] at taken
    cases back : s.holdsBack? stimulus with
    | some f =>
      refine ⟨s.hold f, List.mem_append_left _ (ebbs_react_hold env back).1, ?_⟩
      exact List.append_ne_nil_of_right_ne_nil _ (List.cons_ne_nil f [])
    | none =>
      rw [back] at taken
      obtain ⟨m, there, holding⟩ := ih (lives.react stimulus) taken
      exact ⟨m, List.mem_append_right _ there, holding⟩

end Life

variable (env) in
/-- A session begins with nothing held. -/
theorem holds_opening (limits : SessionLimits) (world : ω) (role : Role) (n : Nat) :
    (∀ m ∈ Session.first env limits world role :: beginning env limits world role,
      Holds limits.frames n m) ∧ Holds limits.frames n (opening env limits world role) := by
  have empty : Holds limits.frames n (Session.first env limits world role) := by
    cases role <;> exact ⟨rfl, Nat.zero_le n⟩
  have begun : Ebbs (Session.first env limits world role) (beginning env limits world role)
      (opening env limits world role) := by
    cases role with
    | initiator => exact .rest _
    | responder => exact ebbs_pumping env (called env limits world).due (called env limits world)
  obtain ⟨each, last⟩ := begun.holds empty
  exact ⟨List.forall_mem_cons.2 ⟨empty, each⟩, last⟩

/-- All moments of a life keep a bound, if there is room for a frame or none is held back. -/
theorem holds_life (env : Surroundings ω) (limits : SessionLimits) (world : ω) (role : Role)
    {stimuli : List Stimulus} (room : max limits.frames 1 ≤ n ∨
      takenWhen env notYetReady (opening env limits world role) stimuli = []) :
    ∀ m ∈ life env limits world role stimuli, Holds limits.frames n m := by
  obtain ⟨each, last⟩ := holds_opening env limits world role n
  have later := holds_moments (lives_opening env limits world role) last room
  rw [life, ← List.cons_append]
  exact List.forall_mem_append.2 ⟨each, later⟩

/-- **How many frames a session holds.**  Whatever happens to an end of either role, it holds
at no moment more frames than its limit, or than one.  It keeps to the limit itself just if
that leaves room for a frame, or no frame is taken before the session is ready. -/
theorem held_within_limit_iff (env : Surroundings ω) (limits : SessionLimits) (world : ω)
    (role : Role) (stimuli : List Stimulus) :
    (∀ m ∈ life env limits world role stimuli, m.held.length ≤ max limits.frames 1) ∧
      ((∀ m ∈ life env limits world role stimuli, m.held.length ≤ limits.frames) ↔
        1 ≤ limits.frames ∨
          takenWhen env notYetReady (opening env limits world role) stimuli = []) := by
  refine ⟨fun m there => (holds_life env limits world role (.inl (le_refl _)) m there).held,
    fun within => ?_, fun room m there => ?_⟩
  · by_contra neither
    obtain ⟨no_room, taken⟩ := not_or.1 neither
    obtain ⟨m, there, holding⟩ := exists_holding (lives_opening env limits world role) taken
    have among : m ∈ life env limits world role stimuli :=
      List.mem_cons_of_mem _ (List.mem_append_right _ there)
    have held := within m among
    have some_held := List.length_pos_of_ne_nil holding
    omega
  · refine (holds_life env limits world role (room.imp_left fun enough => ?_) m there).held
    exact max_le (le_refl _) enough

/-- Settings that leave no room for frames are settings like any others, and a frame that is
sent before such a session is ready is held all the same. -/
theorem not_always_held_within_limit :
    ¬ ∀ (environment : List (String × String)) (settings : Settings),
      Settings.load? "node" none environment = some settings →
        ∀ (env : Surroundings Nat) (world : Nat) (role : Role) (stimuli : List Stimulus),
          ∀ m ∈ life env settings.sessionLimits world role stimuli,
            m.held.length ≤ settings.sessionLimits.frames := by
  intro always
  let settings : Settings :=
    { Settings.default "node" with signaling := ⟨10000, 32, 0⟩ }
  have loads : Settings.load? "node" none
      [("MESHSUB_SIGNALING__PENDING_FRAME_LIMIT", "0")] = some settings := by decide +kernel
  let frame : Frame := ⟨⟨.message, 0, 0⟩, [1]⟩
  have within := always _ settings loads tiring 0 .initiator [.send frame]
    ((connect settings.sessionLimits 0).hold frame) (List.mem_cons_of_mem _ List.mem_cons_self)
  exact absurd within (by decide)

end TopicMesh.Session
