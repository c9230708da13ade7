import TopicMesh.Session.Pair
import TopicMesh.Proofs.Session.Moments

/-!
# The life cycle of a session

Between two stimuli a session is `Alive` or `Over`.  While it is alive, its machine has
not closed, the owner sees the stage of the machine, and it was told of readiness just
if that is the stage.  When it is over, the last input that its machine met is the one
that closed it, and the owner was told why as the last thing before its hook ran.

One input takes a living session to one of the two (`works_process`), by the course of the
move that it brings: calm effects go unnoticed, readiness is told, and closing ends the
session at once (`carriesOut_calm`, `carriesOut_ready`, `carriesOut_closed`).  Hence so do
all inputs of a stimulus (`works_pump`), and so do all stimuli of a life (`Lives.run`).
-/

namespace TopicMesh

namespace Handshake

variable {h h' : Handshake} {effects : List Effect}

/-- A machine that has not closed closes in the very move that tells so. -/
theorem Move.closed_iff (move : Move h h' effects) (still : h.stage ≠ .closed) :
    h'.stage = .closed ↔ ∃ reason, .closed reason ∈ effects := by
  cases move with
  | hungUp gone => exact absurd gone still
  | ended reason streamOpen parting _ farewell =>
    exact ⟨fun _ => ⟨reason, List.mem_concat_self⟩, fun _ => rfl⟩
  | _ => simp_all

end Handshake

open Handshake (Effect Input Course)

namespace Session

variable {ω : Type}

/-! ## Between two stimuli -/

/-- **A session that goes on**, whether it dials or runs. -/
structure Alive (s : Session ω) : Prop where
  phase : s.phase ≠ .ended
  stage : s.machine.stage ≠ .closed
  shown : s.published = s.machine.stage
  reported : reports s.log = if s.machine.stage = .ready then [.ready] else []
  hookless : .hook ∉ s.log

/-- **A session that is over**, by what it has fed to its machine. -/
structure Over (fed : List Feeding) (s : Session ω) : Prop where
  phase : s.phase = .ended
  stage : s.machine.stage = .closed
  shown : s.published = .closed
  /-- The last input closed the machine, and the owner was told the reason that it gave. -/
  batch : ∃ earlier last before reason, fed = earlier ++ [last] ∧
    (last.machine.feed last.input).2.getLast? = some (.closed reason) ∧
    Unclosed before ∧ s.log = before ++ [.closed reason, .hook]

theorem Alive.unclosed {s : Session ω} (alive : Alive s) : Unclosed s.log := by
  refine ⟨?_, alive.hookless⟩
  rw [alive.reported]
  split
  · exact .inr rfl
  · exact .inl rfl

theorem Alive.told {s : Session ω} (alive : Alive s) : Told s :=
  .going alive.unclosed

theorem Alive.unnoticed {s s' : Session ω} (alive : Alive s) (on : Unnoticed s s') : Alive s' where
  phase := on.phase ▸ alive.phase
  stage := on.machine ▸ alive.stage
  shown := by rw [on.published, on.machine, alive.shown]
  reported := by rw [on.reports_eq.1, on.machine, alive.reported]
  hookless there := alive.hookless (on.reports_eq.2.1 there)

theorem Unclosed.unnoticed {s s' : Session ω} (unclosed : Unclosed s.log) (on : Unnoticed s s') :
    Unclosed s'.log :=
  ⟨on.reports_eq.1 ▸ unclosed.reported, fun there => unclosed.hookless (on.reports_eq.2.1 there)⟩

theorem Over.prepend {s : Session ω} {fed : List Feeding} (gone : Over fed s)
    (earlier : List Feeding) : Over (earlier ++ fed) s where
  phase := gone.phase
  stage := gone.stage
  shown := gone.shown
  batch := by
    obtain ⟨before, last, log, reason, rfl, rest⟩ := gone.batch
    exact ⟨earlier ++ before, last, log, reason, (List.append_assoc ..).symm, rest⟩

/-- The end of a session, as its owner sees it. -/
theorem passage_finishing {s : Session ω} (unclosed : Unclosed s.log) (reason : CloseReason) :
    Passage s (s.finishing reason) (s.finish reason) := by
  refine .next s.published.forward_closed (List.prefix_refl _) (.going unclosed) ?_
  refine .next (.inl rfl) (List.prefix_append ..) (.closing s.log reason unclosed rfl rfl) ?_
  refine .next (.inl rfl) (List.prefix_append ..) ?_ (.rest _)
  exact .ended s.log reason unclosed (List.append_assoc ..) rfl

/-! ## One input -/

variable (env : Surroundings ω)

/-- Whether a session left: the last that it did to its surroundings was to close channel
and stream, after a moment in which it ran and its machine was closed. -/
def Departed (moments : List (Session ω)) (s : Session ω) : Prop :=
  ∃ m ∈ moments, m.phase = .running ∧ m.machine.stage = .closed ∧
    s.world = env.closeStream (env.closeChannel m.world)

/-- Whether a session that ran still does, or has ended and left. -/
inductive Comes (moments : List (Session ω)) (fed : List Feeding) (s : Session ω) : Prop
  | stays (alive : Alive s) (running : s.phase = .running)
  | leaves (gone : Over fed s) (departed : Departed env moments s)

/-- **How a session that runs works**, in some moments and with what it feeds then. -/
structure Works (s : Session ω) (moments : List (Session ω)) (fed : List Feeding)
    (s' : Session ω) : Prop where
  passage : Passage s moments s'
  /-- Every input is fed to a machine that has not closed. -/
  open_ : ∀ f ∈ fed, f.machine.stage ≠ .closed
  comes : Comes env moments fed s'

variable {env}

theorem Departed.mono {ms ms' : List (Session ω)} {s : Session ω} (departed : Departed env ms s)
    (there : ∀ m ∈ ms, m ∈ ms') : Departed env ms' s := by
  obtain ⟨m, here, rest⟩ := departed
  exact ⟨m, there m here, rest⟩

theorem Works.append {s s' s'' : Session ω} {ms ms' : List (Session ω)} {fed fed' : List Feeding}
    (first : Works env s ms fed s') (second : Works env s' ms' fed' s'') :
    Works env s (ms ++ ms') (fed ++ fed') s'' where
  passage := first.passage.append second.passage
  open_ := List.forall_mem_append.2 ⟨first.open_, second.open_⟩
  comes := by
    cases second.comes with
    | stays alive running => exact .stays alive running
    | leaves gone departed =>
      exact .leaves (gone.prepend fed) (departed.mono fun _ => List.mem_append_right _)

theorem works_nothing {s : Session ω} (alive : Alive s) (running : s.phase = .running) :
    Works env s [] [] s :=
  ⟨.rest s, List.forall_mem_nil _, .stays alive running⟩

theorem works_unnoticed {s s' : Session ω} (alive : Alive s) (running : s.phase = .running)
    (on : Unnoticed s s') : Works env s [s'] [] s' :=
  ⟨.unnoticed on (alive.unnoticed on).told, List.forall_mem_nil _,
    .stays (alive.unnoticed on) (on.phase.trans running)⟩

variable (env) in
/-- Calm effects go unnoticed. -/
theorem passage_calm {effects : List Effect} (calm : ∀ e ∈ effects, e.Calm) {s : Session ω}
    (alive : s.phase ≠ .ended) (unclosed : Unclosed s.log) :
    Passage s (carryingOutAll env effects s) (carryOutAll env effects s) ∧
      Unnoticed s (carryOutAll env effects s) := by
  induction effects generalizing s with
  | nil => exact ⟨.rest s, .refl s⟩
  | cons e rest ih =>
    obtain ⟨first, others⟩ := List.forall_mem_cons.1 calm
    have on : Unnoticed s (s.carryOut env e) := unnoticed_carryOut env s first
    -- readiness and the end have more moments than one, but are not calm
    have one : s.carryingOut env e = [s.carryOut env e] := by
      cases e with
      | ready => exact first.elim
      | closed => exact first.elim
      | _ => rfl
    have unclosed' : Unclosed (s.carryOut env e).log := unclosed.unnoticed on
    obtain ⟨passage, further⟩ := ih others (on.phase ▸ alive) unclosed'
    rw [carryOutAll_cons alive, carryingOutAll_cons alive, one]
    exact ⟨(Passage.unnoticed on (.going unclosed')).append passage, on.trans further⟩

variable (env) in
/-- The end of a session that runs. -/
theorem passage_closed {s : Session ω} (unclosed : Unclosed s.log) (reason : CloseReason) :
    Passage s (s.carryingOut env (.closed reason)) (s.carryOut env (.closed reason)) := by
  refine .next (.inl rfl) (List.prefix_refl _) (.going unclosed) ?_
  refine .next (.inl rfl) (List.prefix_refl _) (.going unclosed) ?_
  exact passage_finishing (s := s.parted env) unclosed reason

variable (env) in
/-- A session whose machine has moved, **by the effects of the move**. -/
structure CarriesOut (s : Session ω) (effects : List Effect) (fed : List Feeding) : Prop where
  passage : Passage s (carryingOutAll env effects s) (carryOutAll env effects s)
  comes : Comes env (s :: carryingOutAll env effects s) fed (carryOutAll env effects s)

variable {s : Session ω} {fed : List Feeding}

theorem carriesOut_calm {effects : List Effect} (calm : ∀ e ∈ effects, e.Calm) (alive : Alive s)
    (running : s.phase = .running) : CarriesOut env s effects fed := by
  obtain ⟨passage, on⟩ := passage_calm env calm alive.phase alive.unclosed
  exact ⟨passage, .stays (alive.unnoticed on) (on.phase.trans running)⟩

/-- A session that becomes ready says so, and then the frames that it held go out. -/
theorem carriesOut_ready (running : s.phase = .running) (ready : s.machine.stage = .ready)
    (shown : s.published = s.machine.stage) (untold : reports s.log = [])
    (hookless : .hook ∉ s.log) : CarriesOut env s [.ready] fed := by
  have going : s.phase ≠ .ended := alive_of_running running
  have still : s.machine.stage ≠ .closed := by
    rw [ready]
    nofun
  have alive : Alive (s.note .ready) := by
    refine ⟨going, still, shown, ?_, ?_⟩
    · show reports (s.log ++ [.ready]) = if s.machine.stage = .ready then [.ready] else []
      rw [reports_append, untold, if_pos ready]
      rfl
    · exact fun there => hookless ((List.mem_append.1 there).resolve_right (by simp))
  have on : Unnoticed (s.note .ready) (s.carryOut env .ready) := unnoticed_flush ..
  have alive' : Alive (s.carryOut env .ready) := alive.unnoticed on
  have passage : Passage s [s.note .ready, s.carryOut env .ready] (s.carryOut env .ready) :=
    .next (.inl rfl) (List.prefix_append ..) alive.told (.unnoticed on alive'.told)
  constructor <;> rw [carryingOutAll_cons going, carryOutAll_cons going]
  · exact passage
  · exact .stays alive' (on.phase.trans running)

/-- A session whose machine has closed takes its leave, and then it ends. -/
theorem carriesOut_closed {parting : List Effect} (calm : ∀ e ∈ parting, e.Calm)
    (reason : CloseReason) (running : s.phase = .running) (closed : s.machine.stage = .closed)
    (unclosed : Unclosed s.log) {f : Feeding}
    (told : (f.machine.feed f.input).2 = parting ++ [.closed reason]) :
    CarriesOut env s (parting ++ [.closed reason]) [f] := by
  obtain ⟨passage, on⟩ := passage_calm env calm (alive_of_running running) unclosed
  -- the last moment before channel and stream are closed
  let last : Session ω := carryOutAll env parting s
  have there : last ∈ s :: carryingOutAll env parting s := List.mem_of_getLast? passage.last
  have running' : last.phase = .running := on.phase.trans running
  have closed' : last.machine.stage = .closed := on.machine ▸ closed
  have unclosed' : Unclosed last.log := unclosed.unnoticed on
  have going : last.phase ≠ .ended := alive_of_running running'
  constructor <;> rw [carryingOutAll_append, carryOutAll_append, carryingOutAll_cons going,
    carryOutAll_cons going]
  · exact passage.append (passage_closed env unclosed' reason)
  · refine .leaves ⟨rfl, closed', rfl, ?_⟩ ⟨last, ?_, running', closed', rfl⟩
    · refine ⟨[], f, last.log, reason, rfl, ?_, unclosed', List.append_assoc ..⟩
      rw [told]
      exact List.getLast?_concat
    · exact List.mem_append_left _ there

variable (env) in
/-- **One input, and all the effects that it has.** -/
theorem works_process (alive : Alive s) (running : s.phase = .running) (i : Input) :
    Works env s (s.processing env i) [⟨s.machine, i⟩] (s.process env i) := by
  have open_ : ∀ f ∈ [(⟨s.machine, i⟩ : Feeding)], f.machine.stage ≠ .closed :=
    List.forall_mem_singleton.2 alive.stage
  rcases process_cases env s i with ⟨v, turn, same⟩ | ⟨m, effects, turn, move, result⟩
  · -- a violation changes nothing
    have moments : s.processing env i = [s] := by rw [processing, turn]
    rw [moments, same]
    exact ⟨.unnoticed (.refl s) alive.told, open_, .stays alive running⟩
  · let moved : Session ω := { s with machine := m, published := m.stage }
    have moments : s.processing env i = moved :: carryingOutAll env effects moved := by
      rw [processing, turn]
    have told : (s.machine.feed i).2 = effects := by rw [Handshake.feed, turn]
    -- the course of the move decides what becomes of the session: `closes` tells whether
    -- the machine is closed after it, which the course alone does not say
    have closes := move.closed_iff alive.stage
    have forward : s.published.Forward moved.published := alive.shown ▸ move.forward
    have carries : CarriesOut env moved effects [⟨s.machine, i⟩] := by
      cases move.course with
      | calm calm readiness =>
        have still : m.stage ≠ .closed := fun closed =>
          (closes.1 closed).elim fun reason there => calm _ there
        have reported : reports s.log = if m.stage = .ready then [.ready] else [] :=
          alive.reported.trans (if_congr readiness.symm rfl rfl)
        exact carriesOut_calm calm ⟨alive.phase, still, rfl, reported, alive.hookless⟩ running
      | ready before after =>
        have untold : reports s.log = [] := by rw [alive.reported, before]; rfl
        exact carriesOut_ready running after rfl untold alive.hookless
      | ended parting calm reason =>
        have closed : m.stage = .closed := closes.2 ⟨reason, List.mem_concat_self⟩
        exact carriesOut_closed (s := moved) calm reason running closed alive.unclosed told
    rw [moments, result]
    exact ⟨.next forward (List.prefix_refl _) (.going alive.unclosed) carries.passage, open_,
      carries.comes⟩

/-! ## One stimulus -/

variable (env) in
/-- **All inputs that a stimulus brings.** -/
theorem works_pump (n : Nat) (alive : Alive s) (running : s.phase = .running) :
    Works env s (pumping env n s) (pumped env n s) (s.pump env n) := by
  -- `Comes` carries the induction: a session that stays alive can take the next input
  induction n generalizing s with
  | zero => exact works_nothing alive running
  | succ n ih =>
    rcases s.idle_or_next with idle | ⟨i, rest, going, next⟩
    · rw [(pump_of_idle idle (n + 1)).1, (pump_of_idle idle (n + 1)).2, pumping_of_idle idle]
      exact works_nothing alive running
    · let taken : Session ω := { s with inputs := rest }
      have on : Unnoticed s taken := { Unnoticed.refl s with }
      have first : Works env s (taken :: taken.processing env i) [⟨s.machine, i⟩]
          (taken.process env i) :=
        (works_unnoticed alive running on).append
          (works_process env (alive.unnoticed on) running i)
      rw [(pump_of_next going next n).1, (pump_of_next going next n).2, pumping_of_next going next]
      cases first.comes with
      | stays alive' running' => exact first.append (ih alive' running')
      | leaves gone _ =>
        -- a session that is over works no more
        have idle : (taken.process env i).Idle := .inl gone.phase
        rw [(pump_of_idle idle n).1, (pump_of_idle idle n).2, pumping_of_idle idle, List.append_nil]
        exact first

/-- The machine of an end that dials. -/
def dialer (limit : Nat) : Handshake :=
  ((Handshake.new .initiator limit).feed .start).1

theorem feed_dialer (limit : Nat) {i : Input} (disturbs : i.IsDisturbance) :
    ∃ m reason, (dialer limit).feed i = (m, [.closed reason]) ∧ m.stage = .closed := by
  cases i with
  | timeout => exact ⟨_, _, rfl, rfl⟩
  | close => exact ⟨_, _, rfl, rfl⟩
  | failed reason => exact ⟨_, _, rfl, rfl⟩
  | streamClosed => exact ⟨_, _, rfl, rfl⟩
  | channelClosed => exact ⟨_, _, rfl, rfl⟩
  | _ => exact disturbs.elim

/-- A session that ends while it dials. -/
structure Abandons (s : Session ω) (i : Input) : Prop where
  passage : Passage s (s.abandoning i) (s.abandon i)
  gone : Over [⟨s.machine, i⟩] (s.abandon i)
  untouched : (s.abandon i).world = s.world
  silent : ∀ m ∈ s.abandoning i, m.phase ≠ .running

theorem abandons {limit : Nat} (alive : Alive s) (dialing : s.phase = .dialing)
    (machine : s.machine = dialer limit) {i : Input} (disturbs : i.IsDisturbance) :
    Abandons s i := by
  obtain ⟨m, reason, turn, closed⟩ := feed_dialer limit disturbs
  rw [← machine] at turn
  let moved : Session ω := { s with machine := m }
  have session : s.abandon i = moved.finish reason := by rw [abandon, turn]; rfl
  have moments : s.abandoning i = moved :: moved.finishing reason := by rw [abandoning, turn]; rfl
  constructor
  · rw [session, moments]
    refine .next (.inl rfl) (List.prefix_refl _) (.going alive.unclosed) ?_
    exact passage_finishing (s := moved) alive.unclosed reason
  · rw [session]
    refine ⟨rfl, closed, rfl, [], _, s.log, reason, rfl, ?_, alive.unclosed, List.append_assoc ..⟩
    rw [turn]
    rfl
  · rw [session]
    rfl
  · have before : moved.phase ≠ .running := by
      rw [show moved.phase = s.phase from rfl, dialing]
      nofun
    rw [moments]
    simp [before, finishing, ceased, note, finish]

/-! ## A whole life -/

variable (env) in
/-- **Where a session stands between two stimuli**, by its life and what it has fed. -/
inductive Condition (world : ω) (life : List (Session ω)) (fed : List Feeding) (s : Session ω) :
    Prop
  | dialing (alive : Alive s) (phase : s.phase = .dialing) (limit : Nat)
      (machine : s.machine = dialer limit) (untouched : s.world = world)
      (silent : ∀ m ∈ life, m.phase ≠ .running)
  | running (alive : Alive s) (phase : s.phase = .running) (ran : ∃ m ∈ life, m.phase = .running)
  | abandoned (gone : Over fed s) (untouched : s.world = world)
      (silent : ∀ m ∈ life, m.phase ≠ .running)
  | departed (gone : Over fed s) (departed : Departed env life s)

variable (env) in
/-- **What a session has lived through** after its first moment. -/
structure Lives (world : ω) (first : Session ω) (later : List (Session ω)) (fed : List Feeding)
    (s : Session ω) : Prop where
  passage : Passage first later s
  open_ : ∀ f ∈ fed, f.machine.stage ≠ .closed
  condition : Condition env world (first :: later) fed s

namespace Lives

variable {world : ω} {first s : Session ω} {later : List (Session ω)} {fed : List Feeding}

/-- A session that is over stays as it is. -/
theorem gone (lives : Lives env world first later fed s) (ended : s.phase = .ended)
    (stimulus : Stimulus) :
    Lives env world first (later ++ s.reacting env stimulus) (fed ++ s.fed env stimulus)
      (s.react env stimulus) := by
  rw [reacting, Session.fed, react, ended]
  simpa only [List.append_nil] using lives

/-- A session that runs works through what a moment brings. -/
theorem works (lives : Lives env world first later fed s) {t s' : Session ω}
    {moments : List (Session ω)} {more : List Feeding} (passage : Passage s [t] t)
    (running : t.phase = .running) (works : Works env t moments more s') :
    Lives env world first (later ++ t :: moments) (fed ++ more) s' where
  passage := lives.passage.append (passage.append works.passage)
  open_ := List.forall_mem_append.2 ⟨lives.open_, works.open_⟩
  condition := by
    cases works.comes with
    | stays alive' running' => exact .running alive' running' ⟨t, by simp, running⟩
    | leaves gone departed =>
      exact .departed (gone.prepend fed) (departed.mono fun m there => by simp [there])

/-- A session that dials ends without having run. -/
theorem abandon (lives : Lives env world first later fed s) (alive : Alive s)
    (untouched : s.world = world) (silent : ∀ m ∈ first :: later, m.phase ≠ .running)
    {i : Input} (abandons : Abandons s i) :
    Lives env world first (later ++ s.abandoning i) (fed ++ [⟨s.machine, i⟩]) (s.abandon i) where
  passage := lives.passage.append abandons.passage
  open_ := List.forall_mem_append.2 ⟨lives.open_, List.forall_mem_singleton.2 alive.stage⟩
  condition := by
    refine .abandoned (abandons.gone.prepend fed) (abandons.untouched.trans untouched) ?_
    rw [← List.cons_append]
    exact List.forall_mem_append.2 ⟨silent, abandons.silent⟩

/-- **One stimulus.** -/
theorem react (lives : Lives env world first later fed s) (stimulus : Stimulus) :
    Lives env world first (later ++ s.reacting env stimulus) (fed ++ s.fed env stimulus)
      (s.react env stimulus) := by
  cases lives.condition with
  | abandoned gone => exact lives.gone gone.phase stimulus
  | departed gone => exact lives.gone gone.phase stimulus
  | running alive running =>
    let taken : Session ω := s.take env stimulus
    have on : Unnoticed s taken := unnoticed_take env s stimulus
    have running' : taken.phase = .running := on.phase.trans running
    have alive' : Alive taken := alive.unnoticed on
    rw [reacting, Session.fed, Session.react, running]
    exact lives.works (.unnoticed on alive'.told) running' (works_pump env taken.due alive' running')
  | dialing alive dialing limit machine untouched silent =>
    -- either the session runs from now on, or it ends, or it goes on dialing
    have stays : Lives env world first (later ++ []) (fed ++ []) s := by
      simpa only [List.append_nil] using lives
    have ends {i : Input} (disturbs : i.IsDisturbance) :=
      lives.abandon alive untouched silent (abandons alive dialing machine disturbs)
    rw [reacting, Session.fed, Session.react, dialing]
    cases stimulus with
    | dialed =>
      let opened : Session ω := s.opened env
      have alive' : Alive opened :=
        ⟨(by decide : Phase.running ≠ .ended), alive.stage, alive.shown, alive.reported, alive.hookless⟩
      have passage : Passage s [opened] opened :=
        .next (.inl rfl) (List.prefix_refl _) alive'.told (.rest opened)
      exact lives.works passage rfl (works_pump env opened.due alive' rfl)
    | dialFailed reason => exact ends (i := .failed reason) trivial
    | deadline => exact ends (i := .timeout) trivial
    | close => exact ends (i := .close) trivial
    | send f =>
      have on : Unnoticed s (s.hold f) := unnoticed_hold s f
      have alive' : Alive (s.hold f) := alive.unnoticed on
      refine ⟨lives.passage.append (.unnoticed on alive'.told), ?_, ?_⟩
      · exact stays.open_
      · refine .dialing alive' dialing limit machine untouched ?_
        rw [← List.cons_append]
        refine List.forall_mem_append.2 ⟨silent, List.forall_mem_singleton.2 ?_⟩
        rw [show (s.hold f).phase = s.phase from rfl, dialing]
        decide
    | text t => exact stays
    | streamEnded => exact stays
    | streamFailed reason => exact stays
    | channel e => exact stays

/-- **All stimuli.** -/
theorem run (lives : Lives env world first later fed s) (stimuli : List Stimulus) :
    Lives env world first (later ++ moments env s stimuli) (fed ++ fedIn env s stimuli)
      (s.run env stimuli) := by
  induction stimuli generalizing s later fed with
  | nil =>
    rw [moments, fedIn, List.append_nil, List.append_nil]
    exact lives
  | cons stimulus rest ih =>
    rw [moments, fedIn, ← List.append_assoc, ← List.append_assoc]
    exact ih (lives.react stimulus)

/-- A session lives or is over. -/
theorem alive_or_gone (lives : Lives env world first later fed s) : Alive s ∨ Over fed s := by
  cases lives.condition with
  | dialing alive => exact .inl alive
  | running alive => exact .inl alive
  | abandoned gone => exact .inr gone
  | departed gone => exact .inr gone

theorem gone_of_ended (lives : Lives env world first later fed s) (ended : s.phase = .ended) :
    Over fed s :=
  lives.alive_or_gone.resolve_left fun alive => alive.phase ended

theorem ended_iff (lives : Lives env world first later fed s) :
    s.phase = .ended ↔ s.machine.stage = .closed := by
  rcases lives.alive_or_gone with alive | gone
  · exact ⟨fun ended => absurd ended alive.phase, fun closed => absurd closed alive.stage⟩
  · exact ⟨fun _ => gone.stage, fun _ => gone.phase⟩

theorem departed (lives : Lives env world first later fed s) (ended : s.phase = .ended)
    (ran : ∃ m ∈ first :: later, m.phase = .running) : Departed env (first :: later) s := by
  obtain ⟨m, there, running⟩ := ran
  cases lives.condition with
  | dialing alive => exact absurd ended alive.phase
  | running alive => exact absurd ended alive.phase
  | abandoned _ _ silent => exact absurd running (silent m there)
  | departed _ departed => exact departed

theorem untouched (lives : Lives env world first later fed s)
    (silent : ∀ m ∈ first :: later, m.phase ≠ .running) : s.world = world := by
  cases lives.condition with
  | dialing _ _ _ _ untouched => exact untouched
  | running _ _ ran =>
    obtain ⟨m, there, running⟩ := ran
    exact absurd running (silent m there)
  | abandoned _ untouched => exact untouched
  | departed _ departed =>
    obtain ⟨m, there, running, -⟩ := departed
    exact absurd running (silent m there)

end Lives

theorem alive_fresh (role : Role) (limits : SessionLimits) (world : ω) {phase : Phase}
    (going : phase ≠ .ended) : Alive (fresh role limits world phase) :=
  ⟨going, nofun, rfl, rfl, List.not_mem_nil⟩

variable (env) in
theorem lives_opening (limits : SessionLimits) (world : ω) (role : Role) :
    Lives env world (first env limits world role) (beginning env limits world role)
      (fedFirst env limits world role) (opening env limits world role) := by
  cases role with
  | initiator =>
    have alive : Alive (connect limits world) := alive_fresh .initiator limits world nofun
    show Lives env world (connect limits world) [] [] (connect limits world)
    refine ⟨.rest _, List.forall_mem_nil _, .dialing alive rfl limits.candidates rfl rfl ?_⟩
    exact List.forall_mem_singleton.2 nofun
  | responder =>
    have alive : Alive (called env limits world) :=
      (alive_fresh .responder limits _ (by decide : Phase.running ≠ .ended)).unnoticed
        (unnoticed_push _ .streamOpened)
    obtain ⟨passage, open_, comes⟩ := works_pump env (called env limits world).due alive rfl
    refine ⟨passage, open_, ?_⟩
    cases comes with
    | stays alive' running => exact .running alive' running ⟨_, List.mem_cons_self, rfl⟩
    | leaves gone departed =>
      exact .departed gone (departed.mono fun _ there => List.mem_cons_of_mem _ there)

variable (env) in
theorem machine_run (s : Session ω) (stimuli : List Stimulus) :
    (s.run env stimuli).machine =
      (s.machine.run ((fedIn env s stimuli).map Feeding.input)).1 := by
  induction stimuli generalizing s with
  | nil => rfl
  | cons stimulus rest ih =>
    show ((s.react env stimulus).run env rest).machine = _
    rw [ih, machine_react, fedIn, List.map_append, Handshake.run_append]

variable (env) in
/-- What a session feeds to its handshake is all that this one runs on. -/
theorem machine_life (limits : SessionLimits) (world : ω) (role : Role)
    (stimuli : List Stimulus) :
    ((opening env limits world role).run env stimuli).machine =
      ((Handshake.new role limits.candidates).run
        (.start :: (fedThroughout env limits world role stimuli).map Feeding.input)).1 := by
  have opens : (opening env limits world role).machine =
      (((Handshake.new role limits.candidates).feed .start).1.run
        ((fedFirst env limits world role).map Feeding.input)).1 := by
    cases role with
    | initiator => rfl
    | responder => exact machine_pump ..
  rw [machine_run, opens, Handshake.run_cons, fedThroughout, List.map_append, Handshake.run_append]

variable (env) in
/-- What a session was between two stimuli is one of its moments. -/
theorem mem_life (limits : SessionLimits) (world : ω) (role : Role) {stimuli : List Stimulus}
    (earlier : List Stimulus) (before : earlier <+: stimuli) :
    (opening env limits world role).run env earlier ∈ life env limits world role stimuli := by
  obtain ⟨more, rfl⟩ := before
  have there : (opening env limits world role).run env earlier ∈
      life env limits world role earlier :=
    List.mem_of_getLast? ((lives_opening env limits world role).run earlier).passage.last
  have longer : life env limits world role (earlier ++ more) =
      life env limits world role earlier ++
        moments env ((opening env limits world role).run env earlier) more := by
    rw [life, life, moments_append, List.cons_append, List.append_assoc]
  rw [longer]
  exact List.mem_append_left _ there

/-- **The life cycle of a session** `s` that some stimuli led to, by all its moments and
what it fed to its handshake. -/
structure LifeCycle (env : Surroundings ω) (limits : SessionLimits) (world : ω) (role : Role)
    (stimuli : List Stimulus) (life : List (Session ω)) (fed : List Feeding) (s : Session ω) :
    Prop where
  /-- The moments lead to the session, through all that it was between two stimuli. -/
  last : life.getLast? = some s
  passed : ∀ earlier, earlier <+: stimuli → (opening env limits world role).run env earlier ∈ life
  /-- What was fed is all that the machine ran on after its start. -/
  machine : s.machine =
    ((Handshake.new role limits.candidates).run (.start :: fed.map Feeding.input)).1
  /-- What happened stays so. -/
  grown : life.Pairwise fun m m' => m.log <+: m'.log
  /-- The owner is told that the session is ready, that it is closed, or the one and then
  the other, each of them once. -/
  reported : ∀ m ∈ life, ∃ reason,
    reports m.log <+: [.ready, .closed reason] ∨ reports m.log <+: [.closed reason]
  /-- The stage that the owner sees never goes back. -/
  forward : life.Pairwise fun m m' => m.published.Forward m'.published
  /-- What was reported closed is seen closed. -/
  shown : ∀ m ∈ life, ∀ reason, .closed reason ∈ m.log → m.published = .closed
  /-- The hook runs once, right after the session was reported closed. -/
  hooked : ∀ m ∈ life, .hook ∈ m.log →
    ∃ before reason, m.log = before ++ [.closed reason, .hook] ∧ .hook ∉ before
  /-- A session has ended just if its machine has closed. -/
  ended : s.phase = .ended ↔ s.machine.stage = .closed
  /-- Nothing is fed to a machine that has closed. -/
  open_ : ∀ f ∈ fed, f.machine.stage ≠ .closed
  /-- The effects of the last input end with the closing of the session; the owner is told
  the reason that they give, and the hook runs. -/
  batch : s.phase = .ended → ∃ earlier last before reason, fed = earlier ++ [last] ∧
    (last.machine.feed last.input).2.getLast? = some (.closed reason) ∧
    Unclosed before ∧ s.log = before ++ [.closed reason, .hook]
  /-- A session that ran, and so had its stream and its channel, closes both when it ends. -/
  departed : s.phase = .ended → (∃ m ∈ life, m.phase = .running) → Departed env life s
  /-- A session that never ran did nothing to its surroundings. -/
  untouched : (∀ m ∈ life, m.phase ≠ .running) → s.world = world

/-- **The life cycle of a session.**  Whatever happens to an end of either role and whatever
its channel and stream answer, its owner is told at most that it is ready and then that it
is closed, sees no stage after a later one, and has its hook run when the session ends, once
and right after it was told so; and a session ends in the very batch of effects in which its
machine closes, with channel and stream closed if they were there. -/
theorem life_cycle (env : Surroundings ω) (limits : SessionLimits) (world : ω) (role : Role)
    (stimuli : List Stimulus) :
    LifeCycle env limits world role stimuli (life env limits world role stimuli)
      (fedThroughout env limits world role stimuli)
      ((opening env limits world role).run env stimuli) := by
  have lives := (lives_opening env limits world role).run stimuli
  have begun : Told (first env limits world role) := by
    cases role with
    | initiator => exact .going ⟨.inl rfl, List.not_mem_nil⟩
    | responder => exact .going ⟨.inl rfl, List.not_mem_nil⟩
  have told : ∀ m ∈ life env limits world role stimuli, Told m :=
    List.forall_mem_cons.2 ⟨begun, lives.passage.told⟩
  have further := List.Pairwise.cons lives.passage.onward lives.passage.pairwise
  exact
    { last := lives.passage.last
      passed := mem_life env limits world role
      machine := machine_life env limits world role stimuli
      grown := further.imp And.right
      reported := fun m there => (told m there).reported
      forward := further.imp And.left
      shown := fun m there _ reported => (told m there).shown reported
      hooked := fun m there ran => (told m there).hooked ran
      ended := lives.ended_iff
      open_ := lives.open_
      batch := fun ended => (lives.gone_of_ended ended).batch
      departed := lives.departed
      untouched := lives.untouched }

/-- What an owner sees and is told if the time is up while its end dials. -/
example :
    (life JoinedEnd.surroundings ⟨1000, 4, 2⟩ (.new .initiator "session" "host" 7) .initiator
      [.deadline, .close]).map (fun m => (m.published, m.log)) =
        [(.connecting, []), (.connecting, []), (.closed, []), (.closed, [.closed .timeout]),
          (.closed, [.closed .timeout, .hook])] := by
  decide

end Session

end TopicMesh
