import TopicMesh.Proofs.Session.Settling
import TopicMesh.Proofs.Session.Recording

/-!
# The moments of a session

A stimulus takes a session through several sessions in between: the machine moves, each
effect is carried out, the end comes in steps.  These are its **moments**, listed in
order by `reacting`, and by `life` from the beginning on.

Whatever a session does, its owner sees it as a `Passage`: from one moment to the next
the log only grows and the published stage never goes back, and at each moment what was
reported fits what is published (`Told`).  Passages join (`Passage.append`), so a life is
one passage if every step is.
-/

namespace TopicMesh

open Handshake (Effect Input)

namespace Session

/-- Whether the owner is told of an occurrence: that the session is ready, or closed. -/
def Occurrence.isReport : Occurrence → Bool
  | .ready | .closed _ => true
  | _ => false

/-- What the owner was told, oldest first. -/
def reports (log : List Occurrence) : List Occurrence :=
  log.filter Occurrence.isReport

theorem reports_append (log more : List Occurrence) :
    reports (log ++ more) = reports log ++ reports more :=
  List.filter_append ..

variable {ω : Type} (env : Surroundings ω)

/-! ## The moments -/

/-- A session at the beginning of its end: the owner sees it closed. -/
def ceased (s : Session ω) : Session ω :=
  { s with phase := .ended, published := .closed, held := [] }

/-- The moments in which a session finishes: it is over, says why, and runs the hook. -/
def finishing (s : Session ω) (reason : CloseReason) : List (Session ω) :=
  [s.ceased, s.ceased.note (.closed reason), s.finish reason]

/-- The session without its channel. -/
def shut (s : Session ω) : Session ω :=
  { s with world := env.closeChannel s.world }

/-- The session without channel and stream. -/
def parted (s : Session ω) : Session ω :=
  { s with world := env.closeStream (env.closeChannel s.world) }

/-- The moments in which one effect is carried out. -/
def carryingOut (s : Session ω) : Effect → List (Session ω)
  | .ready => [s.note .ready, s.carryOut env .ready]
  | .closed reason => s.shut env :: s.parted env :: (s.parted env).finishing reason
  | e => [s.carryOut env e]

/-- The moments in which effects are carried out, until the session is over. -/
def carryingOutAll : List Effect → Session ω → List (Session ω)
  | [], _ => []
  | e :: rest, s =>
    match s.phase with
    | .ended => []
    | _ => s.carryingOut env e ++ carryingOutAll rest (s.carryOut env e)

/-- The moments that one input takes. -/
def processing (s : Session ω) (i : Input) : List (Session ω) :=
  match s.machine.handle i with
  | (m, .error _) => [{ s with machine := m }]
  | (m, .ok effects) =>
    let moved : Session ω := { s with machine := m, published := m.stage }
    moved :: carryingOutAll env effects moved

/-- The moments in which at most `n` inputs are worked through. -/
def pumping : (n : Nat) → Session ω → List (Session ω)
  | 0, _ => []
  | n + 1, s =>
    match s.phase, s.inputs with
    | .ended, _ => []
    | _, [] => []
    | _, i :: rest =>
      { s with inputs := rest } :: { s with inputs := rest }.processing env i ++
        pumping n ({ s with inputs := rest }.process env i)

/-- The moments in which a session that dials ends. -/
def abandoning (s : Session ω) (i : Input) : List (Session ω) :=
  let (m, effects) := s.machine.feed i
  let reason := effects.findSome? fun
    | .closed reason => some reason
    | _ => none
  { s with machine := m } :: { s with machine := m }.finishing (reason.getD .requested)

/-- The session of an end that dialed, when the stream is there. -/
def opened (s : Session ω) : Session ω :=
  { s with
    phase := .running
    world := env.openChannel s.machine.role s.world
    inputs := [.streamOpened] }

/-- The moments that a stimulus takes a session that dials. -/
def reactingDialing (s : Session ω) : Stimulus → List (Session ω)
  | .dialed => s.opened env :: pumping env (s.opened env).due (s.opened env)
  | .dialFailed reason => s.abandoning (.failed reason)
  | .deadline => s.abandoning .timeout
  | .close => s.abandoning .close
  | .send f => [s.hold f]
  | _ => []

/-- **The moments that a stimulus takes.** -/
def reacting (s : Session ω) (stimulus : Stimulus) : List (Session ω) :=
  match s.phase with
  | .ended => []
  | .dialing => s.reactingDialing env stimulus
  | .running =>
    s.take env stimulus :: pumping env (s.take env stimulus).due (s.take env stimulus)

/-- The moments that some stimuli take. -/
def moments : Session ω → List Stimulus → List (Session ω)
  | _, [] => []
  | s, stimulus :: rest => s.reacting env stimulus ++ moments (s.react env stimulus) rest

/-- What some stimuli make a session feed to its handshake. -/
def fedIn : Session ω → List Stimulus → List Feeding
  | _, [] => []
  | s, stimulus :: rest => s.fed env stimulus ++ fedIn (s.react env stimulus) rest

/-- The session of an end that was dialed, before its first step. -/
def called (limits : SessionLimits) (world : ω) : Session ω :=
  (fresh .responder limits (env.openChannel .responder world) .running).push .streamOpened

/-- The first moment of an end. -/
def first (limits : SessionLimits) (world : ω) : Role → Session ω
  | .initiator => connect limits world
  | .responder => called env limits world

/-- The moments after the first one, before anything happens to an end. -/
def beginning (limits : SessionLimits) (world : ω) : Role → List (Session ω)
  | .initiator => []
  | .responder => pumping env (called env limits world).due (called env limits world)

/-- What an end feeds to its handshake at first. -/
def fedFirst (limits : SessionLimits) (world : ω) : Role → List Feeding
  | .initiator => []
  | .responder => pumped env (called env limits world).due (called env limits world)

/-- **The life of a session**: all its moments, from the first one on. -/
def life (limits : SessionLimits) (world : ω) (role : Role) (stimuli : List Stimulus) :
    List (Session ω) :=
  first env limits world role ::
    (beginning env limits world role ++ moments env (opening env limits world role) stimuli)

/-- All that a session feeds to its handshake after its start. -/
def fedThroughout (limits : SessionLimits) (world : ω) (role : Role) (stimuli : List Stimulus) :
    List Feeding :=
  fedFirst env limits world role ++ fedIn env (opening env limits world role) stimuli

variable {env}

theorem moments_append (s : Session ω) (stimuli more : List Stimulus) :
    moments env s (stimuli ++ more) = moments env s stimuli ++ moments env (s.run env stimuli) more := by
  induction stimuli generalizing s with
  | nil => rfl
  | cons stimulus rest ih =>
    rw [List.cons_append, moments, moments, ih, List.append_assoc]
    rfl

theorem pumping_of_idle {s : Session ω} (idle : s.Idle) (n : Nat) : pumping env n s = [] := by
  cases n with
  | zero => rfl
  | succ n =>
    rw [pumping]
    rcases idle with stopped | none
    · rw [stopped]
    · rw [none]
      cases s.phase <;> rfl

theorem pumping_of_next {s : Session ω} {i : Input} {rest : List Input}
    (alive : s.phase ≠ .ended) (next : s.inputs = i :: rest) (n : Nat) :
    pumping env (n + 1) s =
      { s with inputs := rest } :: { s with inputs := rest }.processing env i ++
        pumping env n ({ s with inputs := rest }.process env i) := by
  rw [pumping, next]
  cases phase : s.phase with
  | ended => exact absurd phase alive
  | dialing => rfl
  | running => rfl

theorem carryingOutAll_cons {s : Session ω} (alive : s.phase ≠ .ended) (e : Effect)
    (rest : List Effect) :
    carryingOutAll env (e :: rest) s =
      s.carryingOut env e ++ carryingOutAll env rest (s.carryOut env e) := by
  rw [carryingOutAll]
  cases phase : s.phase with
  | ended => exact absurd phase alive
  | dialing => rfl
  | running => rfl

theorem carryingOutAll_of_ended {s : Session ω} (ended : s.phase = .ended)
    (effects : List Effect) : carryingOutAll env effects s = [] := by
  cases effects with
  | nil => rfl
  | cons e rest => rw [carryingOutAll, ended]

theorem carryingOutAll_append (effects more : List Effect) (s : Session ω) :
    carryingOutAll env (effects ++ more) s =
      carryingOutAll env effects s ++ carryingOutAll env more (carryOutAll env effects s) := by
  induction effects generalizing s with
  | nil => rfl
  | cons e rest ih =>
    by_cases ended : s.phase = .ended
    · simp only [carryingOutAll_of_ended ended, carryOutAll_of_ended ended, List.append_nil]
    · rw [List.cons_append, carryOutAll_cons ended, carryingOutAll_cons ended,
        carryingOutAll_cons ended, ih, List.append_assoc]

/-! ## What the owner does not notice -/

/-- Whether something happens that the owner is not told of. -/
def Occurrence.Quiet : Occurrence → Prop
  | .received _ | .handed _ => True
  | _ => False

/-- Whether a session goes on where another one is, unnoticed by its owner. -/
structure Unnoticed (s s' : Session ω) : Prop where
  machine : s'.machine = s.machine
  phase : s'.phase = s.phase
  published : s'.published = s.published
  log : ∃ more, s'.log = s.log ++ more ∧ ∀ o ∈ more, o.Quiet

theorem Unnoticed.refl (s : Session ω) : Unnoticed s s :=
  ⟨rfl, rfl, rfl, [], (List.append_nil _).symm, List.forall_mem_nil _⟩

theorem Unnoticed.trans {s₁ s₂ s₃ : Session ω} (first : Unnoticed s₁ s₂)
    (second : Unnoticed s₂ s₃) : Unnoticed s₁ s₃ where
  machine := second.machine.trans first.machine
  phase := second.phase.trans first.phase
  published := second.published.trans first.published
  log := by
    obtain ⟨more, log, quiet⟩ := first.log
    obtain ⟨more', log', quiet'⟩ := second.log
    refine ⟨more ++ more', by rw [log', log, List.append_assoc], ?_⟩
    exact List.forall_mem_append.2 ⟨quiet, quiet'⟩

/-- Nothing that is quiet is a report, and none is the hook. -/
theorem reports_of_quiet {more : List Occurrence} (quiet : ∀ o ∈ more, o.Quiet) :
    reports more = [] ∧ .hook ∉ more := by
  refine ⟨List.filter_eq_nil_iff.2 fun o there report => ?_, fun there => quiet _ there⟩
  have := quiet o there
  cases o <;> first | exact this | cases report

theorem Unnoticed.reports_eq {s s' : Session ω} (on : Unnoticed s s') :
    reports s'.log = reports s.log ∧ (.hook ∈ s'.log ↔ .hook ∈ s.log) := by
  obtain ⟨more, log, quiet⟩ := on.log
  obtain ⟨none, hookless⟩ := reports_of_quiet quiet
  rw [log, reports_append, none, List.append_nil, List.mem_append, or_iff_left hookless]
  exact ⟨rfl, Iff.rfl⟩

theorem unnoticed_note (s : Session ω) {o : Occurrence} (quiet : o.Quiet) :
    Unnoticed s (s.note o) :=
  ⟨rfl, rfl, rfl, [o], rfl, List.forall_mem_singleton.2 quiet⟩

theorem unnoticed_push (s : Session ω) (i : Input) : Unnoticed s (s.push i) :=
  { Unnoticed.refl s with }

theorem unnoticed_hold (s : Session ω) (f : Frame) : Unnoticed s (s.hold f) :=
  { Unnoticed.refl s with }

theorem unnoticed_took {α : Type} (s : Session ω) (outcome : Except Error α × ω) :
    Unnoticed s (s.took outcome) := by
  obtain ⟨_ | _, w⟩ := outcome <;> exact { Unnoticed.refl s with }

theorem unnoticed_described (s : Session ω) (outcome : Except Error String × ω) :
    Unnoticed s (s.described outcome) := by
  obtain ⟨_ | _, w⟩ := outcome <;> exact { Unnoticed.refl s with }

theorem unnoticed_hand (s : Session ω) (f : Frame) : Unnoticed s (s.hand env f) :=
  (unnoticed_note s (o := .handed f) trivial).trans (unnoticed_took ..)

theorem unnoticed_flush (frames : List Frame) (s : Session ω) :
    Unnoticed s (flush env frames s) := by
  induction frames generalizing s with
  | nil => exact { Unnoticed.refl s with }
  | cons f rest ih =>
    have noted : Unnoticed s (s.note (.handed f)) := unnoticed_note s trivial
    rcases sent : env.sendFrame f s.world with ⟨e | _, w⟩
    · rw [flush_of_error sent]
      exact { noted with }
    · rw [flush_of_ok sent]
      have sent : Unnoticed s { s.note (.handed f) with world := w } := { noted with }
      exact sent.trans (ih _)

variable (env) in
theorem unnoticed_take (s : Session ω) (stimulus : Stimulus) :
    Unnoticed s (s.take env stimulus) := by
  cases stimulus with
  | text t =>
    rw [take]
    split
    · exact unnoticed_push s _
    · exact .refl s
  | channel e =>
    cases e with
    | frame f => exact unnoticed_note s trivial
    | localCandidate c => exact unnoticed_push s _
    | opened => exact unnoticed_push s _
    | closed => exact unnoticed_push s _
    | failed reason => exact unnoticed_push s _
  | send f =>
    rw [take]
    split
    · exact unnoticed_hand s f
    · exact unnoticed_hold s f
  | deadline =>
    rw [take]
    split
    · exact .refl s
    · exact unnoticed_push s _
  | streamEnded => exact unnoticed_push s _
  | streamFailed reason => exact unnoticed_push s _
  | close => exact unnoticed_push s _
  | dialed => exact .refl s
  | dialFailed reason => exact .refl s

variable (env) in
theorem unnoticed_carryOut (s : Session ω) {e : Effect} (calm : e.Calm) :
    Unnoticed s (s.carryOut env e) := by
  cases e with
  | send m => exact unnoticed_took ..
  | createOffer => exact unnoticed_described ..
  | createAnswer => exact unnoticed_described ..
  | applyDescription kind description => exact unnoticed_took ..
  | applyCandidate c => exact { Unnoticed.refl s with }
  | ready => exact calm.elim
  | closed reason => exact calm.elim

/-! ## What the owner sees -/

/-- Whether a log is that of a session that has not closed: at most readiness was
reported, and the hook did not run. -/
structure Unclosed (log : List Occurrence) : Prop where
  reported : reports log = [] ∨ reports log = [.ready]
  hookless : .hook ∉ log

/-- **What the owner was told at a moment**: nothing of an end, or that the session is
closed, which it also sees then, or everything. -/
inductive Told (s : Session ω) : Prop
  | going (unclosed : Unclosed s.log)
  | closing (before : List Occurrence) (reason : CloseReason) (unclosed : Unclosed before)
      (log : s.log = before ++ [.closed reason]) (shown : s.published = .closed)
  | ended (before : List Occurrence) (reason : CloseReason) (unclosed : Unclosed before)
      (log : s.log = before ++ [.closed reason, .hook]) (shown : s.published = .closed)

theorem Unclosed.no_closed {log : List Occurrence} (unclosed : Unclosed log)
    (reason : CloseReason) : .closed reason ∉ log := by
  intro there
  have reported : .closed reason ∈ reports log := List.mem_filter.2 ⟨there, rfl⟩
  rcases unclosed.reported with none | ready
  · rw [none] at reported
    cases reported
  · rw [ready] at reported
    exact nomatch List.mem_singleton.1 reported

theorem Unclosed.reports_closed {before : List Occurrence} (unclosed : Unclosed before)
    (reason : CloseReason) :
    reports before ++ [.closed reason] = [.closed reason] ∨
      reports before ++ [.closed reason] = [.ready, .closed reason] := by
  rcases unclosed.reported with none | ready
  · exact .inl (by rw [none]; rfl)
  · exact .inr (by rw [ready]; rfl)

/-- The owner is told at most that the session is ready and then that it is closed. -/
theorem Told.reported {s : Session ω} (told : Told s) :
    ∃ reason, reports s.log <+: [.ready, .closed reason] ∨ reports s.log <+: [.closed reason] := by
  have closed {before : List Occurrence} (unclosed : Unclosed before) (reason : CloseReason)
      (reported : reports s.log = reports before ++ [.closed reason]) :
      ∃ reason, reports s.log <+: [.ready, .closed reason] ∨
        reports s.log <+: [.closed reason] := by
    rw [reported]
    refine ⟨reason, ?_⟩
    rcases unclosed.reports_closed reason with alone | both
    · rw [alone]
      exact .inr (List.prefix_refl _)
    · rw [both]
      exact .inl (List.prefix_refl _)
  cases told with
  | going unclosed =>
    -- no reason was given yet, so any will do
    refine ⟨.requested, .inl ?_⟩
    rcases unclosed.reported with none | ready
    · exact none ▸ List.nil_prefix
    · exact ready ▸ List.prefix_append [_] [_]
  | closing before reason unclosed log _ =>
    exact closed unclosed reason (by rw [log, reports_append]; rfl)
  | ended before reason unclosed log _ =>
    exact closed unclosed reason (by rw [log, reports_append]; rfl)

/-- The owner sees a session closed that was reported closed. -/
theorem Told.shown {s : Session ω} (told : Told s) {reason : CloseReason}
    (reported : .closed reason ∈ s.log) : s.published = .closed := by
  cases told with
  | going unclosed => exact absurd reported (unclosed.no_closed reason)
  | closing _ _ _ _ shown => exact shown
  | ended _ _ _ _ shown => exact shown

/-- The hook runs once, right after the session was reported closed. -/
theorem Told.hooked {s : Session ω} (told : Told s) (ran : .hook ∈ s.log) :
    ∃ before reason, s.log = before ++ [.closed reason, .hook] ∧ .hook ∉ before := by
  cases told with
  | going unclosed => exact absurd ran unclosed.hookless
  | closing before reason unclosed log _ =>
    rw [log, List.mem_append, List.mem_singleton] at ran
    exact absurd (ran.resolve_right nofun) unclosed.hookless
  | ended before reason unclosed log _ => exact ⟨before, reason, log, unclosed.hookless⟩

/-- **A passage through moments**, as the owner sees it, from a session to another one. -/
inductive Passage : Session ω → List (Session ω) → Session ω → Prop
  | rest (s : Session ω) : Passage s [] s
  | next {s m s' : Session ω} {later : List (Session ω)}
      (forward : s.published.Forward m.published) (grown : s.log <+: m.log) (told : Told m)
      (passage : Passage m later s') : Passage s (m :: later) s'

namespace Passage

variable {s s' s'' : Session ω} {ms later : List (Session ω)}

theorem append (first : Passage s ms s') (second : Passage s' later s'') :
    Passage s (ms ++ later) s'' := by
  induction first with
  | rest => exact second
  | next forward grown told _ ih => exact .next forward grown told (ih second)

theorem told (passage : Passage s ms s') : ∀ m ∈ ms, Told m := by
  induction passage with
  | rest => exact List.forall_mem_nil _
  | next _ _ told _ ih => exact List.forall_mem_cons.2 ⟨told, ih⟩

theorem last (passage : Passage s ms s') : (s :: ms).getLast? = some s' := by
  induction passage with
  | rest s => rfl
  | next _ _ _ _ ih => rwa [List.getLast?_cons_cons]

/-- Every moment comes after the session that it began with. -/
theorem onward (passage : Passage s ms s') :
    ∀ m ∈ ms, s.published.Forward m.published ∧ s.log <+: m.log := by
  induction passage with
  | rest => exact List.forall_mem_nil _
  | next forward grown _ _ ih =>
    refine List.forall_mem_cons.2 ⟨⟨forward, grown⟩, fun m there => ?_⟩
    obtain ⟨forward', grown'⟩ := ih m there
    exact ⟨forward.trans forward', grown.trans grown'⟩

/-- Of two moments, the later one is further on. -/
theorem pairwise (passage : Passage s ms s') :
    ms.Pairwise fun m m' => m.published.Forward m'.published ∧ m.log <+: m'.log := by
  induction passage with
  | rest => exact .nil
  | next _ _ _ passage ih => exact .cons passage.onward ih

/-- One moment that the owner does not notice. -/
theorem unnoticed (on : Unnoticed s s') (told : Told s') : Passage s [s'] s' := by
  refine .next (.inl on.published.symm) ?_ told (.rest s')
  obtain ⟨more, log, -⟩ := on.log
  exact log ▸ List.prefix_append ..

end Passage

end Session

end TopicMesh
