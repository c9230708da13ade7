import Mathlib.Data.List.DropRight
import TopicMesh.Proofs.Session.Recording
import TopicMesh.Proofs.Session.Settling

/-!
# The order of frames through a session

A session takes frames to be sent before it is ready and after it.  The early ones are
held, the last of them as far as there is room, and go out when the session becomes
ready; the late ones go out at once.  Whatever happens to a session in whatever order,
and whatever its channel answers, the frames that are handed to the channel are the ones
held at last and then the late ones, in the order in which they were taken
(`frames_in_order`): none before the session is ready, none twice, and none left out
unless the session ends, or a frame fails, before its turn.

The `Flow` of a session says how far it has come: it waits, or hands over what it takes,
or has met a failure, or is over.  It is kept by every input (`flow_process`), and a
failure that was met is an input that waits.  As a session settles before the next
stimulus (`idle_settle`), nothing is taken after a failure.
-/

namespace TopicMesh.Session

open Handshake (Effect)

/-- The frames that were handed to the channel, by the log, in order. -/
def handedIn (log : List Occurrence) : List Frame :=
  log.filterMap fun
    | .handed f => some f
    | _ => none

theorem handedIn_append (log more : List Occurrence) :
    handedIn (log ++ more) = handedIn log ++ handedIn more :=
  List.filterMap_append

/-- Whether a record is about the frames of a log, none of which was handed over before
the session was ready. -/
structure SoundRecord (log : List Occurrence) (record : Record) : Prop where
  recorded : record.map Prod.fst = handedIn log
  /-- As long as the session was not ready, no frame was handed over. -/
  after_ready : ∀ told, told <+: log → .ready ∉ told → handedIn told = []

/-- **Whether frames were sent in order**: of those taken early the last few, and then
those taken late. -/
structure SentInOrder (limit : Nat) (early late : List Frame) (log : List Occurrence)
    (record : Record) : Prop extends SoundRecord log record where
  /-- The frames were handed over in their turn, each of them once. -/
  in_turn : handedIn log <+: early.rtake limit ++ late
  /-- If the session became ready and no frame failed, all of them were. -/
  complete : .ready ∈ log → (∀ x ∈ record, x.2 = .ok ()) → handedIn log = early.rtake limit ++ late

section Order

variable {limit : Nat} {early late : List Frame} {log : List Occurrence} {record : Record}

theorem soundRecord_nothing (nothing : handedIn log = []) : SoundRecord log [] where
  recorded := nothing.symm
  after_ready told within _ := by
    have part : handedIn told <+: handedIn log := within.filterMap _
    rw [nothing] at part
    exact List.prefix_nil.1 part

theorem SoundRecord.append (sound : SoundRecord log record) {more : List Occurrence}
    (nothing : handedIn more = []) : SoundRecord (log ++ more) record := by
  have same : handedIn (log ++ more) = handedIn log := by
    rw [handedIn_append, nothing, List.append_nil]
  refine ⟨same ▸ sound.recorded, fun told within unready => ?_⟩
  rcases List.prefix_or_prefix_of_prefix within (List.prefix_append log more) with inside | beyond
  · exact sound.after_ready told inside unready
  · -- the session was not ready in all of the log, and nothing handed over follows
    have before := sound.after_ready log (List.prefix_refl log) fun there =>
      unready (beyond.subset there)
    have all : handedIn told <+: handedIn (log ++ more) := within.filterMap _
    rw [same, before] at all
    exact List.prefix_nil.1 all

theorem SentInOrder.append (order : SentInOrder limit early late log record)
    {more : List Occurrence} (nothing : handedIn more = []) (silent : .ready ∉ more) :
    SentInOrder limit early late (log ++ more) record := by
  have same : handedIn (log ++ more) = handedIn log := by
    rw [handedIn_append, nothing, List.append_nil]
  refine ⟨order.toSoundRecord.append nothing, same ▸ order.in_turn, fun ready sound => ?_⟩
  rw [same]
  exact order.complete ((List.mem_append.1 ready).resolve_right silent) sound

theorem SoundRecord.hand (sound : SoundRecord log record) (told : .ready ∈ log) (f : Frame)
    (result : Except Error Unit) :
    SoundRecord (log ++ [.handed f]) (record ++ [(f, result)]) where
  recorded := by
    rw [List.map_append, sound.recorded, handedIn_append]
    rfl
  after_ready so_far within unready := by
    rcases List.prefix_or_prefix_of_prefix within (List.prefix_append log _) with inside | beyond
    · exact sound.after_ready so_far inside unready
    · exact absurd (beyond.subset told) unready

end Order

variable {ω : Type} {env : Surroundings ω}

/-! ## What a session takes -/

/-- The frame that a session takes to be sent; none if it is over. -/
def takes? (s : Session ω) : Stimulus → Option Frame
  | .send f => if s.phase = .ended then none else some f
  | _ => none

/-- What a session takes from a stimulus if a test holds of it. -/
def takesWhen (test : Session ω → Bool) (s : Session ω) (stimulus : Stimulus) : List Frame :=
  if test s then (s.takes? stimulus).toList else []

variable (env) in
/-- The frames that a session takes from some stimuli, each time that a test holds of it. -/
def takenWhen (test : Session ω → Bool) (s : Session ω) : List Stimulus → List Frame
  | [] => []
  | stimulus :: rest =>
    s.takesWhen test stimulus ++ takenWhen test (s.react env stimulus) rest

/-- Whether the session has become ready. -/
def wasReady (s : Session ω) : Bool :=
  .ready ∈ s.log

/-- Whether the session has not become ready. -/
def notYetReady (s : Session ω) : Bool :=
  !s.wasReady

theorem forget_takenWhen (test : Session ω → Bool) (test' : Session (ω × Record) → Bool)
    (same : ∀ s, test' s = test s.forget) (s : Session (ω × Record)) (stimuli : List Stimulus) :
    takenWhen env.recorded test' s stimuli = takenWhen env test s.forget stimuli := by
  induction stimuli generalizing s with
  | nil => rfl
  | cons stimulus rest ih =>
    have takes : s.takesWhen test' stimulus = s.forget.takesWhen test stimulus := by
      unfold takesWhen
      rw [same]
      cases stimulus <;> rfl
    rw [takenWhen, takenWhen, ih, forget_react, takes]

/-- The newest frames that are held, after one more. -/
theorem held_hold {s : Session ω} {early : List Frame} (roomy : 1 ≤ s.holdLimit)
    (held : s.held = early.rtake s.holdLimit) (f : Frame) :
    (s.hold f).held = (early ++ [f]).rtake s.holdLimit := by
  obtain ⟨n, limit⟩ := Nat.exists_eq_add_one.2 roomy
  have kept : (if n + 1 ≤ s.held.length then s.held.drop 1 else s.held) = early.rtake n := by
    rw [held, limit, List.rtake, List.rtake, List.length_drop, List.drop_drop]
    split
    · exact congrArg (List.drop · early) (by omega)
    · exact congrArg (List.drop · early) (by omega)
  show (if s.holdLimit ≤ s.held.length then s.held.drop 1 else s.held) ++ [f] = _
  rw [limit, kept, List.rtake_concat_succ]

/-! ## The flow -/

/-- Whether a session has not become ready and holds the last frames that it took. -/
structure Waiting (limit : Nat) (early : List Frame) (s : Session (ω × Record)) : Prop where
  alive : s.phase ≠ .ended
  unready : s.machine.stage ≠ .ready
  untold : .ready ∉ s.log
  nothing : handedIn s.log = []
  unsent : s.world.2 = []
  room : s.holdLimit = limit
  held : s.held = early.rtake limit

/-- **How far a session has come with its frames.** -/
inductive Flow (limit : Nat) (early late : List Frame) (s : Session (ω × Record)) : Prop
  /-- It holds what it takes. -/
  | waiting (waits : Waiting limit early s) (none_late : late = [])
  /-- It has handed over all that it is to hand over. -/
  | flowing (running : s.phase = .running) (ready : s.machine.stage = .ready)
      (told : .ready ∈ s.log) (all : handedIn s.log = early.rtake limit ++ late)
      (order : SentInOrder limit early late s.log s.world.2)
  /-- A frame has failed, which is still to be worked through. -/
  | failing (running : s.phase = .running) (ready : s.machine.stage = .ready)
      (failure : ∃ reason, .failed reason ∈ s.inputs)
      (order : SentInOrder limit early late s.log s.world.2)
  | finished (ended : s.phase = .ended) (order : SentInOrder limit early late s.log s.world.2)

variable {limit : Nat} {early late : List Frame} {s s' : Session (ω × Record)}

theorem Flow.order (flow : Flow limit early late s) :
    SentInOrder limit early late s.log s.world.2 := by
  cases flow with
  | waiting waits none_late =>
    rw [waits.unsent, none_late]
    exact ⟨soundRecord_nothing waits.nothing, waits.nothing ▸ List.nil_prefix,
      fun ready => absurd ready waits.untold⟩
  | flowing _ _ _ _ order => exact order
  | failing _ _ _ order => exact order
  | finished _ order => exact order

/-- Whether a session goes on where another one is, as far as frames are concerned. -/
structure GoesOn (s s' : Session (ω × Record)) : Prop where
  phase : s'.phase = s.phase
  readiness : s'.machine.stage = .ready ↔ s.machine.stage = .ready
  held : s'.held = s.held
  room : s'.holdLimit = s.holdLimit
  log : ∃ more, s'.log = s.log ++ more ∧ handedIn more = [] ∧ .ready ∉ more
  record : s'.world.2 = s.world.2
  failures : s.machine.stage = .ready → ∀ reason, .failed reason ∈ s.inputs →
    .failed reason ∈ s'.inputs

theorem GoesOn.refl (s : Session (ω × Record)) : GoesOn s s :=
  ⟨rfl, Iff.rfl, rfl, rfl, ⟨[], (List.append_nil _).symm, rfl, List.not_mem_nil⟩, rfl,
    fun _ _ => id⟩

theorem GoesOn.trans {s₁ s₂ s₃ : Session (ω × Record)} (first : GoesOn s₁ s₂)
    (second : GoesOn s₂ s₃) : GoesOn s₁ s₃ where
  phase := second.phase.trans first.phase
  readiness := second.readiness.trans first.readiness
  held := second.held.trans first.held
  room := second.room.trans first.room
  log := by
    obtain ⟨more, log, nothing, silent⟩ := first.log
    obtain ⟨more', log', nothing', silent'⟩ := second.log
    refine ⟨more ++ more', by rw [log', log, List.append_assoc], ?_, ?_⟩
    · rw [handedIn_append, nothing, nothing', List.append_nil]
    · exact fun there => (List.mem_append.1 there).elim silent silent'
  record := second.record.trans first.record
  failures ready reason there :=
    second.failures (first.readiness.2 ready) reason (first.failures ready reason there)

theorem Flow.goesOn (flow : Flow limit early late s) (on : GoesOn s s') :
    Flow limit early late s' := by
  obtain ⟨more, log, nothing_more, silent⟩ := on.log
  have order : SentInOrder limit early late s'.log s'.world.2 := by
    rw [log, on.record]
    exact flow.order.append nothing_more silent
  cases flow with
  | waiting waits none_late =>
    refine .waiting ⟨on.phase ▸ waits.alive, fun ready => waits.unready (on.readiness.1 ready), ?_,
      ?_, on.record.trans waits.unsent, on.room.trans waits.room, on.held.trans waits.held⟩ none_late
    · rw [log]
      exact fun there => (List.mem_append.1 there).elim waits.untold silent
    · rw [log, handedIn_append, waits.nothing, nothing_more, List.append_nil]
  | flowing running ready told all _ =>
    refine .flowing (on.phase.trans running) (on.readiness.2 ready) ?_ ?_ order
    · rw [log]
      exact List.mem_append_left _ told
    · rw [log, handedIn_append, nothing_more, List.append_nil, all]
  | failing running ready failure _ =>
    exact .failing (on.phase.trans running) (on.readiness.2 ready)
      (failure.imp (on.failures ready)) order
  | finished ended _ => exact .finished (on.phase.trans ended) order

/-! ## Calm effects -/

theorem goesOn_push (s : Session (ω × Record)) (i : Handshake.Input) : GoesOn s (s.push i) :=
  { GoesOn.refl s with failures := fun _ _ there => List.mem_append_left _ there }

theorem goesOn_took {α : Type} (s : Session (ω × Record)) (outcome : Except Error α × ω) :
    GoesOn s (s.took (beside outcome s.world.2)) := by
  obtain ⟨e | _, w⟩ := outcome
  · exact { goesOn_push s (.failed e.message) with record := rfl }
  · exact { GoesOn.refl s with record := rfl }

theorem goesOn_described (s : Session (ω × Record)) (outcome : Except Error String × ω) :
    GoesOn s (s.described (beside outcome s.world.2)) := by
  obtain ⟨e | description, w⟩ := outcome
  · exact { goesOn_push s (.failed e.message) with record := rfl }
  · exact { goesOn_push s (.localDescription description) with record := rfl }

variable (env) in
theorem goesOn_carryOut (s : Session (ω × Record)) {e : Effect} (calm : e.Calm) :
    GoesOn s (s.carryOut env.recorded e) := by
  cases e with
  | send m => exact goesOn_took ..
  | createOffer => exact goesOn_described ..
  | createAnswer => exact goesOn_described ..
  | applyDescription kind description => exact goesOn_took ..
  | applyCandidate c => exact { GoesOn.refl s with record := rfl }
  | ready => exact calm.elim
  | closed reason => exact calm.elim

theorem goesOn_carryOutAll {effects : List Effect} (calm : ∀ e ∈ effects, e.Calm)
    (s : Session (ω × Record)) : GoesOn s (carryOutAll env.recorded effects s) := by
  induction effects generalizing s with
  | nil => exact .refl s
  | cons e rest ih =>
    obtain ⟨first, others⟩ := List.forall_mem_cons.1 calm
    by_cases ended : s.phase = .ended
    · rw [carryOutAll, ended]
      exact .refl s
    · rw [carryOutAll_cons ended]
      exact (goesOn_carryOut env s first).trans (ih others _)

/-- The end comes after calm effects. -/
theorem finished_carryOutAll {parting : List Effect} (calm : ∀ e ∈ parting, e.Calm)
    (reason : CloseReason) (alive : s.phase ≠ .ended)
    (order : SentInOrder limit early late s.log s.world.2) :
    Flow limit early late (carryOutAll env.recorded (parting ++ [.closed reason]) s) := by
  have on : GoesOn s (carryOutAll env.recorded parting s) := goesOn_carryOutAll calm s
  obtain ⟨more, log, nothing, silent⟩ := on.log
  rw [carryOutAll_append, carryOutAll_cons (on.phase ▸ alive)]
  refine .finished rfl ?_
  show SentInOrder limit early late ((_ ++ [.closed reason]) ++ [.hook]) _
  rw [List.append_assoc]
  refine SentInOrder.append ?_ rfl (by simp)
  show SentInOrder limit early late (carryOutAll env.recorded parting s).log
    (carryOutAll env.recorded parting s).world.2
  rw [log, on.record]
  exact order.append nothing silent

/-! ## Becoming ready -/

/-- The held frames go out until one fails. -/
theorem flow_flush {frames : List Frame} (running : s.phase = .running)
    (ready : s.machine.stage = .ready) (told : .ready ∈ s.log)
    (sound : SoundRecord s.log s.world.2) (held : handedIn s.log ++ frames = early.rtake limit) :
    Flow limit early [] (flush env.recorded frames s) := by
  induction frames generalizing s with
  | nil =>
    have all : handedIn s.log = early.rtake limit ++ [] := by rw [← held]; simp
    exact .flowing running ready told all ⟨sound, all ▸ List.prefix_refl _, fun _ _ => all⟩
  | cons f rest ih =>
    have handed : handedIn (s.log ++ [.handed f]) = handedIn s.log ++ [f] := handedIn_append ..
    have turn : handedIn (s.log ++ [.handed f]) ++ rest = early.rtake limit := by
      rw [handed, List.append_assoc]
      exact held
    rcases sent : env.sendFrame f s.world.1 with ⟨e | u, w⟩
    · rw [flush_of_error (recorded_sendFrame sent)]
      refine .failing running ready ⟨_, List.mem_append_right _ (List.mem_singleton_self _)⟩
        ⟨sound.hand told f (.error e), ?_, fun _ sound => ?_⟩
      · rw [List.append_nil]
        exact ⟨rest, turn⟩
      · cases sound (f, .error e) (List.mem_append_right _ (List.mem_singleton_self _))
    · rw [flush_of_ok (recorded_sendFrame sent)]
      exact ih running ready (List.mem_append_left _ told) (sound.hand told f (.ok u)) turn

theorem flow_ready {m : Handshake} (ready : m.stage = .ready) (running : s.phase = .running)
    (unready : s.machine.stage ≠ .ready) (flow : Flow limit early late s) :
    Flow limit early late (carryOutAll env.recorded [.ready] { s with machine := m, published := m.stage }) := by
  cases flow with
  | waiting waits none_late =>
    subst none_late
    rw [carryOutAll_cons (by exact waits.alive)]
    -- what is held is all that there is to hand over, and nothing was handed over before
    have sound : SoundRecord s.log s.world.2 := waits.unsent ▸ soundRecord_nothing waits.nothing
    refine flow_flush running ready (List.mem_append_right _ (List.mem_singleton_self _))
      (sound.append rfl) ?_
    show handedIn (s.log ++ [.ready]) ++ s.held = _
    rw [handedIn_append, waits.nothing, waits.held]
    rfl
  | flowing _ ready => exact absurd ready unready
  | failing _ ready => exact absurd ready unready
  | finished ended => exact absurd ended (alive_of_running running)

/-! ## Settling -/

theorem handle_failed {h : Handshake} (still : h.stage ≠ .closed) (reason : String) :
    (h.handle (.failed reason)).2 = .ok [.closed (.failed reason)] := by
  simp [Handshake.handle, Handshake.allowed, Handshake.endWith, still]

theorem goesOn_next {i : Handshake.Input} {rest : List Handshake.Input}
    (next : s.inputs = i :: rest)
    (sound : s.machine.stage = .ready → ∀ reason, i ≠ .failed reason) :
    GoesOn s { s with inputs := rest } :=
  { GoesOn.refl s with
    failures := fun ready reason there => by
      rw [next] at there
      exact (List.mem_cons.1 there).resolve_left fun same => sound ready reason same.symm }

theorem goesOn_machine (s : Session (ω × Record)) {m : Handshake}
    (readiness : m.stage = .ready ↔ s.machine.stage = .ready) :
    GoesOn s { s with machine := m, published := m.stage } where
  phase := rfl
  readiness := readiness
  held := rfl
  room := rfl
  log := (GoesOn.refl s).log
  record := rfl
  failures _ _ there := there

/-- **Every input keeps the flow.** -/
theorem flow_process {i : Handshake.Input} {rest : List Handshake.Input}
    (running : s.phase = .running) (next : s.inputs = i :: rest)
    (flow : Flow limit early late s) :
    Flow limit early late ({ s with inputs := rest }.process env.recorded i) := by
  rcases process_cases env.recorded { s with inputs := rest } i with
    ⟨v, turn, same⟩ | ⟨m, effects, turn, move, is⟩
  · rw [same]
    -- a violation drops the input, and a failure is none: the machine has not closed
    refine flow.goesOn (goesOn_next next fun ready reason failed => ?_)
    have ends := handle_failed (h := s.machine) (by rw [ready]; nofun) reason
    rw [← failed, turn] at ends
    cases ends
  · rw [is]
    cases move.course with
    | calm all readiness =>
      refine flow.goesOn ((goesOn_next next fun ready reason failed => ?_).trans
        (GoesOn.trans ?_ (goesOn_carryOutAll all _)))
      · have ends := handle_failed (h := s.machine) (by rw [ready]; nofun) reason
        rw [← failed, turn] at ends
        cases ends
        exact all _ List.mem_cons_self
      · exact goesOn_machine _ readiness
    | ready before after =>
      have unready : s.machine.stage ≠ .ready := by
        rw [show s.machine.stage = _ from before]
        nofun
      have waits : GoesOn s { s with inputs := rest } :=
        goesOn_next next fun ready => absurd ready unready
      exact flow_ready after running unready (flow.goesOn waits)
    | ended parting calm reason =>
      exact finished_carryOutAll calm reason (alive_of_running running) flow.order

theorem flow_settle (running : s.phase = .running) (flow : Flow limit early late s) :
    Flow limit early late (s.settle env.recorded) := by
  refine (settle_induction (P := fun s => Flow limit early late s ∧ s.phase ≠ .dialing)
    (fun s i rest kept alive next => ?_) ⟨flow, by rw [running]; nofun⟩).1
  obtain ⟨flow, dialed⟩ := kept
  have running : s.phase = .running := by
    cases phase : s.phase with
    | dialing => exact absurd phase dialed
    | running => rfl
    | ended => exact absurd phase alive
  refine ⟨flow_process running next flow, ?_⟩
  rcases phase_process env.recorded { s with inputs := rest } i with same | ended
  · rw [same]
    exact dialed
  · rw [ended]
    nofun

/-! ## One stimulus -/

/-- The flow of a session that has worked through its inputs, if it runs. -/
structure AtRest (limit : Nat) (early late : List Frame) (s : Session (ω × Record)) : Prop where
  flow : Flow limit early late s
  settled : s.phase = .running → s.inputs = []

theorem atRest_settle (running : s.phase = .running) (flow : Flow limit early late s) :
    AtRest limit early late (s.settle env.recorded) where
  flow := flow_settle running flow
  settled still := (idle_settle s).resolve_left (alive_of_running still)

/-- What a stimulus other than a frame does at once is of no concern to frames. -/
theorem goesOn_take {stimulus : Stimulus} (none_taken : ∀ f, stimulus ≠ .send f) :
    GoesOn s (s.take env.recorded stimulus) := by
  cases stimulus with
  | send f => exact absurd rfl (none_taken f)
  | text t =>
    simp only [take]
    split
    · exact goesOn_push s _
    · exact .refl s
  | streamEnded => exact goesOn_push s _
  | streamFailed reason => exact goesOn_push s _
  | close => exact goesOn_push s _
  | deadline =>
    simp only [take]
    split
    · exact .refl s
    · exact goesOn_push s _
  | dialed => exact .refl s
  | dialFailed reason => exact .refl s
  | channel e =>
    cases e with
    | frame f => exact { GoesOn.refl s with log := ⟨[.received f], rfl, rfl, by simp⟩ }
    | _ => exact goesOn_push s _

/-- A frame that is taken early is held. -/
theorem flow_hold (roomy : 1 ≤ limit) (waits : Waiting limit early s) (none_late : late = [])
    (f : Frame) :
    Flow limit (early ++ s.takesWhen notYetReady (.send f)) (late ++ s.takesWhen wasReady (.send f))
      (s.hold f) := by
  have takes : s.takesWhen notYetReady (.send f) = [f] ∧ s.takesWhen wasReady (.send f) = [] := by
    simp [takesWhen, takes?, notYetReady, wasReady, waits.untold, waits.alive]
  have held : (s.hold f).held = (early ++ [f]).rtake limit :=
    waits.room ▸ held_hold (waits.room ▸ roomy) (waits.room ▸ waits.held) f
  rw [takes.1, takes.2, none_late]
  exact .waiting { waits with held := held } rfl

/-- A frame is held, or handed over at once. -/
theorem flow_send (roomy : 1 ≤ limit) (running : s.phase = .running)
    (rest : AtRest limit early late s) (f : Frame) :
    Flow limit (early ++ s.takesWhen notYetReady (.send f)) (late ++ s.takesWhen wasReady (.send f))
      (s.take env.recorded (.send f)) := by
  have alive := alive_of_running running
  cases rest.flow with
  | waiting waits none_late =>
    rw [show s.take env.recorded (.send f) = s.hold f from if_neg waits.unready]
    exact flow_hold roomy waits none_late f
  | flowing _ ready told all order =>
    have takes : s.takesWhen notYetReady (.send f) = [] ∧ s.takesWhen wasReady (.send f) = [f] := by
      simp [takesWhen, takes?, notYetReady, wasReady, told, alive]
    have all_now : handedIn (s.log ++ [.handed f]) = early.rtake limit ++ (late ++ [f]) := by
      rw [handedIn_append, all, List.append_assoc]
      rfl
    have order_now : ∀ result, SentInOrder limit early (late ++ [f]) (s.log ++ [.handed f])
        (s.world.2 ++ [(f, result)]) := fun result =>
      ⟨order.toSoundRecord.hand told f result, all_now ▸ List.prefix_refl _, fun _ _ => all_now⟩
    have told_now : .ready ∈ s.log ++ [.handed f] := List.mem_append_left _ told
    rw [takes.1, takes.2, List.append_nil,
      show s.take env.recorded (.send f) = s.hand env.recorded f from if_pos ready]
    unfold hand
    rcases sent : env.sendFrame f s.world.1 with ⟨e | u, w⟩
    · rw [show env.recorded.sendFrame f s.world = _ from recorded_sendFrame sent]
      exact .failing running ready ⟨_, List.mem_append_right _ (List.mem_singleton_self _)⟩
        (order_now (.error e))
    · rw [show env.recorded.sendFrame f s.world = _ from recorded_sendFrame sent]
      exact .flowing running ready told_now all_now (order_now (.ok u))
  | failing _ _ failure _ =>
    -- a failure has been worked through before the next frame is taken
    obtain ⟨reason, there⟩ := failure
    rw [rest.settled running] at there
    cases there
  | finished ended _ => exact absurd ended alive

theorem takesWhen_of_not_send {test : Session ω → Bool} {s : Session ω} {stimulus : Stimulus}
    (none_taken : ∀ f, stimulus ≠ .send f) : s.takesWhen test stimulus = [] := by
  unfold takesWhen
  split
  · cases stimulus with
    | send f => exact absurd rfl (none_taken f)
    | _ => rfl
  · rfl

theorem takesWhen_of_ended {test : Session ω → Bool} {s : Session ω} (ended : s.phase = .ended)
    (stimulus : Stimulus) : s.takesWhen test stimulus = [] := by
  unfold takesWhen
  split
  · cases stimulus with
    | send f => simp [takes?, ended]
    | _ => rfl
  · rfl

theorem phase_take (s : Session ω) (stimulus : Stimulus) :
    (s.take env stimulus).phase = s.phase := by
  unfold take
  split <;> (try split) <;> first | rfl | exact phase_took ..

/-- A session that is given up while it dials is over. -/
theorem atRest_abandon (flow : Flow limit early late s) (i : Handshake.Input) :
    AtRest limit early late (s.abandon i) where
  flow := by
    refine .finished rfl ?_
    show SentInOrder limit early late ((s.log ++ [.closed _]) ++ [.hook]) s.world.2
    rw [List.append_assoc]
    exact flow.order.append rfl (by simp)
  settled := nofun

/-- What a stimulus does to a session that dials. -/
theorem atRest_reactDialing (roomy : 1 ≤ limit) (dialing : s.phase = .dialing)
    (flow : Flow limit early late s) (stimulus : Stimulus) :
    AtRest limit (early ++ s.takesWhen notYetReady stimulus) (late ++ s.takesWhen wasReady stimulus)
      (s.reactDialing env.recorded stimulus) := by
  have idle : s.phase ≠ .running := by
    rw [dialing]
    nofun
  cases flow with
  | waiting waits none_late =>
    have stays : AtRest limit early late s :=
      ⟨.waiting waits none_late, fun running => absurd running idle⟩
    by_cases sends : ∃ f, stimulus = .send f
    · obtain ⟨f, rfl⟩ := sends
      exact ⟨flow_hold roomy waits none_late f, fun running => absurd running idle⟩
    · have none_taken : ∀ f, stimulus ≠ .send f := fun f same => sends ⟨f, same⟩
      rw [takesWhen_of_not_send none_taken, takesWhen_of_not_send none_taken, List.append_nil,
        List.append_nil]
      cases stimulus with
      | dialed =>
        exact atRest_settle rfl (.waiting { waits with alive := nofun } none_late)
      | dialFailed reason => exact atRest_abandon stays.flow (.failed reason)
      | deadline => exact atRest_abandon stays.flow .timeout
      | close => exact atRest_abandon stays.flow .close
      | send f => exact absurd rfl (none_taken f)
      | text t => exact stays
      | streamEnded => exact stays
      | streamFailed reason => exact stays
      | channel e => exact stays
  | flowing running => exact absurd running idle
  | failing running => exact absurd running idle
  | finished ended =>
    rw [dialing] at ended
    cases ended

/-- **Every stimulus keeps the flow**, with the frame that is taken from it. -/
theorem atRest_react (roomy : 1 ≤ limit) (rest : AtRest limit early late s) (stimulus : Stimulus) :
    AtRest limit (early ++ s.takesWhen notYetReady stimulus) (late ++ s.takesWhen wasReady stimulus)
      (s.react env.recorded stimulus) := by
  unfold react
  cases phase : s.phase with
  | ended =>
    rw [takesWhen_of_ended phase, takesWhen_of_ended phase, List.append_nil, List.append_nil]
    exact rest
  | dialing => exact atRest_reactDialing roomy phase rest.flow stimulus
  | running =>
    refine atRest_settle ((phase_take s stimulus).trans phase) ?_
    by_cases sends : ∃ f, stimulus = .send f
    · obtain ⟨f, rfl⟩ := sends
      exact flow_send roomy phase rest f
    · have none_taken : ∀ f, stimulus ≠ .send f := fun f same => sends ⟨f, same⟩
      rw [takesWhen_of_not_send none_taken, takesWhen_of_not_send none_taken, List.append_nil,
        List.append_nil]
      exact rest.flow.goesOn (goesOn_take none_taken)

/-! ## A run -/

variable (env) in
theorem atRest_run (roomy : 1 ≤ limit) (rest : AtRest limit early late s)
    (stimuli : List Stimulus) :
    AtRest limit (early ++ takenWhen env.recorded notYetReady s stimuli)
      (late ++ takenWhen env.recorded wasReady s stimuli) (s.run env.recorded stimuli) := by
  induction stimuli generalizing s early late with
  | nil =>
    rw [takenWhen, takenWhen, List.append_nil, List.append_nil]
    exact rest
  | cons stimulus others ih =>
    rw [takenWhen, takenWhen, ← List.append_assoc, ← List.append_assoc]
    exact ih (atRest_react roomy rest stimulus)

theorem flow_fresh (role : Role) (limits : SessionLimits) (world : ω) {phase : Phase}
    (alive : phase ≠ .ended) : Flow limits.frames [] [] (fresh role limits (world, []) phase) :=
  .waiting ⟨alive, nofun, List.not_mem_nil, rfl, rfl, rfl, (List.rtake_nil ..).symm⟩ rfl

variable (env) in
theorem atRest_opening (limits : SessionLimits) (world : ω) (role : Role) :
    AtRest limits.frames [] [] (opening env.recorded limits (world, []) role) := by
  cases role with
  | initiator => exact ⟨flow_fresh .initiator limits world (by decide), nofun⟩
  | responder =>
    have begun := flow_fresh .responder limits (env.openChannel .responder world)
      (by decide : Phase.running ≠ .ended)
    exact atRest_settle rfl (begun.goesOn (goesOn_push _ .streamOpened))

/-- The frames that a session hands to its channel, each with what comes of it. -/
def sentFrames (env : Surroundings ω) (limits : SessionLimits) (world : ω) (role : Role)
    (stimuli : List Stimulus) : Record :=
  ((opening env.recorded limits (world, []) role).run env.recorded stimuli).world.2

/-- **Frames go through a session in order.**  Whatever happens to an end of either role and
whatever its channel answers, no frame is handed over before the session is ready, and the
frames that are handed over are the last ones that were taken before it was ready and then
those that were taken after, up to the end of the session or the first frame that fails. -/
theorem frames_in_order (env : Surroundings ω) {limits : SessionLimits}
    (roomy : 1 ≤ limits.frames) (world : ω) (role : Role) (stimuli : List Stimulus) :
    SentInOrder limits.frames
      (takenWhen env notYetReady (opening env limits world role) stimuli)
      (takenWhen env wasReady (opening env limits world role) stimuli)
      ((opening env limits world role).run env stimuli).log
      (sentFrames env limits world role stimuli) := by
  let begun := opening env.recorded limits (world, []) role
  have order := (atRest_run env roomy (atRest_opening env limits world role) stimuli).flow.order
  have plain : begun.forget = opening env limits world role := forget_opening ..
  have early : takenWhen env.recorded notYetReady begun stimuli =
      takenWhen env notYetReady begun.forget stimuli :=
    forget_takenWhen notYetReady notYetReady (fun _ => rfl) ..
  have late : takenWhen env.recorded wasReady begun stimuli =
      takenWhen env wasReady begun.forget stimuli :=
    forget_takenWhen wasReady wasReady (fun _ => rfl) ..
  have log : (begun.run env.recorded stimuli).log = (begun.forget.run env stimuli).log :=
    congrArg Session.log (forget_run begun stimuli)
  rw [List.nil_append, List.nil_append, early, late, log, plain] at order
  exact order

/-- Surroundings in which everything works, but for a channel that fails when it has sent
as many frames as its state says. -/
def tiring : Surroundings Nat where
  openChannel _ w := w
  createOffer w := (.ok "offer", w)
  createAnswer w := (.ok "answer", w)
  applyDescription _ _ w := (.ok (), w)
  applyCandidate _ w := (.ok (), w)
  sendFrame _ w := if w = 0 then (.error (.transportFailure "tired"), 0) else (.ok (), w - 1)
  closeChannel w := w
  sendSignal _ w := (.ok (), w)
  closeStream w := w

/-- Of three frames that are taken while there is room for two the last two go out, and then
the one that is taken when the session is ready; the next one fails. -/
theorem frames_in_order_until_tired :
    let limits : SessionLimits := ⟨1000, 4, 2⟩
    let frame (n : UInt8) : Frame := ⟨⟨.message, 0, 0⟩, [n]⟩
    let stimuli : List Stimulus :=
      [.send (frame 1), .dialed, .send (frame 2), .text (Signal.answer "answer").toText,
        .send (frame 3), .channel .opened, .send (frame 4), .send (frame 5), .send (frame 6)]
    let s := (opening tiring limits 3 .initiator).run tiring stimuli
    SentInOrder 2 (takenWhen tiring notYetReady (opening tiring limits 3 .initiator) stimuli)
        (takenWhen tiring wasReady (opening tiring limits 3 .initiator) stimuli) s.log
        (sentFrames tiring limits 3 .initiator stimuli) ∧
      handedIn s.log = [frame 2, frame 3, frame 4, frame 5] := by
  intro limits frame stimuli s
  have roomy : 1 ≤ limits.frames := by decide
  exact ⟨frames_in_order tiring roomy 3 .initiator stimuli, by decide +kernel⟩

end TopicMesh.Session
