import TopicMesh.Session.Basic

/-!
# What a session feeds its handshake

A stimulus makes a session give inputs to its handshake.  Each of them is a `Feeding`:
an input and the machine that it met.  `fed` lists the feedings of a stimulus, in
order; the machine that the session has afterwards is the one that they lead to
(`machine_react`).

How a session comes to rest after a stimulus is a derivation of `Settles`: input after
input is taken off the front, until none is left or the session is over.  A derivation
fixes both the session at its end and what was fed on the way (`react_of_settles`), so
an outcome is proved once for both.
-/

namespace TopicMesh

/-- An input of a handshake, and the machine that it met. -/
structure Feeding where
  machine : Handshake
  input : Handshake.Input

theorem Handshake.run_cons (h : Handshake) (i : Input) (rest : List Input) :
    (h.run (i :: rest)).1 = ((h.feed i).1.run rest).1 := rfl

/-- An input that comes to something was allowed. -/
theorem Handshake.handle_of_step {h : Handshake} {i : Handshake.Input}
    {result : Handshake × List Handshake.Effect} (step : h.step i = .ok result) :
    h.handle i = (result.1, .ok result.2) := by
  unfold Handshake.step at step
  generalize h.handle i = turn at step ⊢
  obtain ⟨m, v | effects⟩ := turn <;> cases step
  rfl

/-- Whether an input was no violation where it arrived. -/
def Feeding.Accepted (f : Feeding) : Prop :=
  ∃ outcome, f.machine.step f.input = .ok outcome

/-- Whether none of some inputs was a violation. -/
def AllAccepted (feedings : List Feeding) : Prop :=
  ∀ f ∈ feedings, f.Accepted

theorem allAccepted_nil : AllAccepted [] :=
  fun _ there => absurd there List.not_mem_nil

theorem allAccepted_cons {f : Feeding} {feedings : List Feeding} (first : f.Accepted)
    (others : AllAccepted feedings) : AllAccepted (f :: feedings) :=
  List.forall_mem_cons.2 ⟨first, others⟩

theorem allAccepted_singleton {f : Feeding} (accepted : f.Accepted) : AllAccepted [f] :=
  allAccepted_cons accepted allAccepted_nil

/-- Whether an input is a timeout, a close or a failing transport. -/
def Handshake.Input.IsDisturbance : Handshake.Input → Prop
  | .timeout | .close => True
  | .failed _ | .streamClosed | .channelClosed => True
  | _ => False

/-- Whether none of some inputs was a disturbance. -/
def Undisturbed (feedings : List Feeding) : Prop :=
  ∀ f ∈ feedings, ¬f.input.IsDisturbance

theorem not_undisturbed {f : Feeding} {feedings : List Feeding} (there : f ∈ feedings)
    (disturbs : f.input.IsDisturbance) : ¬Undisturbed feedings :=
  fun undisturbed => undisturbed f there disturbs

/-- Whether none of some inputs was a violation or a disturbance. -/
structure Smooth (feedings : List Feeding) : Prop where
  accepted : AllAccepted feedings
  undisturbed : Undisturbed feedings

theorem smooth_nil : Smooth [] :=
  ⟨allAccepted_nil, fun _ there => absurd there List.not_mem_nil⟩

theorem smooth_cons {f : Feeding} {feedings : List Feeding} (first : f.Accepted)
    (calm : ¬f.input.IsDisturbance) (others : Smooth feedings) : Smooth (f :: feedings) :=
  ⟨allAccepted_cons first others.accepted, List.forall_mem_cons.2 ⟨calm, others.undisturbed⟩⟩

theorem smooth_append_iff {feedings others : List Feeding} :
    Smooth (feedings ++ others) ↔ Smooth feedings ∧ Smooth others := by
  constructor
  · rintro ⟨accepted, undisturbed⟩
    obtain ⟨accepted₁, accepted₂⟩ := List.forall_mem_append.1 accepted
    obtain ⟨undisturbed₁, undisturbed₂⟩ := List.forall_mem_append.1 undisturbed
    exact ⟨⟨accepted₁, undisturbed₁⟩, accepted₂, undisturbed₂⟩
  · rintro ⟨first, second⟩
    exact ⟨List.forall_mem_append.2 ⟨first.accepted, second.accepted⟩,
      List.forall_mem_append.2 ⟨first.undisturbed, second.undisturbed⟩⟩

theorem smooth_singleton {f : Feeding} (accepted : f.Accepted) (calm : ¬f.input.IsDisturbance) :
    Smooth [f] :=
  smooth_cons accepted calm smooth_nil

namespace Session

variable {ω : Type} (env : Surroundings ω)

/-- What is fed while at most `n` inputs are worked through. -/
def pumped : (n : Nat) → Session ω → List Feeding
  | 0, _ => []
  | n + 1, s =>
    match s.phase, s.inputs with
    | .ended, _ => []
    | _, [] => []
    | _, i :: rest => ⟨s.machine, i⟩ :: pumped n ({ s with inputs := rest }.process env i)

/-- How many inputs may come of those that wait. -/
def due (s : Session ω) : Nat :=
  s.inputs.foldr (fun i n => weight i + n) 0

/-- What is fed to the handshake of a session that dials. -/
def fedDialing (s : Session ω) : Stimulus → List Feeding
  | .dialed =>
    let opened : Session ω := { s with
      phase := .running
      world := env.openChannel s.machine.role s.world
      inputs := [.streamOpened] }
    pumped env opened.due opened
  | .dialFailed reason => [⟨s.machine, .failed reason⟩]
  | .deadline => [⟨s.machine, .timeout⟩]
  | .close => [⟨s.machine, .close⟩]
  | _ => []

/-- **What a stimulus makes a session feed to its handshake.** -/
def fed (s : Session ω) (stimulus : Stimulus) : List Feeding :=
  match s.phase with
  | .ended => []
  | .dialing => s.fedDialing env stimulus
  | .running => pumped env (s.take env stimulus).due (s.take env stimulus)

variable {env : Surroundings ω}

/-! ## Working through inputs -/

/-- Whether a session has nothing to work through. -/
def Idle (s : Session ω) : Prop :=
  s.phase = .ended ∨ s.inputs = []

theorem pump_of_idle {s : Session ω} (idle : s.Idle) (n : Nat) :
    s.pump env n = s ∧ pumped env n s = [] := by
  cases n with
  | zero => exact ⟨rfl, rfl⟩
  | succ n =>
    rw [pump, pumped]
    rcases idle with stopped | none
    · rw [stopped]
      exact ⟨rfl, rfl⟩
    · rw [none]
      cases s.phase <;> exact ⟨rfl, rfl⟩

theorem pump_of_next {s : Session ω} {i : Handshake.Input} {rest : List Handshake.Input}
    (alive : s.phase ≠ .ended) (next : s.inputs = i :: rest) (n : Nat) :
    s.pump env (n + 1) = ({ s with inputs := rest }.process env i).pump env n ∧
      pumped env (n + 1) s =
        ⟨s.machine, i⟩ :: pumped env n ({ s with inputs := rest }.process env i) := by
  rw [pump, pumped, next]
  cases phase : s.phase with
  | ended => exact absurd phase alive
  | dialing => exact ⟨rfl, rfl⟩
  | running => exact ⟨rfl, rfl⟩

theorem idle_or_next (s : Session ω) :
    s.Idle ∨ ∃ i rest, s.phase ≠ .ended ∧ s.inputs = i :: rest := by
  by_cases stopped : s.phase = .ended
  · exact .inl (.inl stopped)
  · cases next : s.inputs with
    | nil => exact .inl (.inr next)
    | cons i rest => exact .inr ⟨i, rest, stopped, rfl⟩

theorem carryOutAll_cons {s : Session ω} (alive : s.phase ≠ .ended) (e : Handshake.Effect)
    (rest : List Handshake.Effect) :
    carryOutAll env (e :: rest) s = carryOutAll env rest (s.carryOut env e) := by
  rw [carryOutAll]
  cases phase : s.phase with
  | ended => exact absurd phase alive
  | dialing => rfl
  | running => rfl

theorem alive_of_running {s : Session ω} (running : s.phase = .running) : s.phase ≠ .ended := by
  rw [running]
  nofun

theorem flush_of_ok {s : Session ω} {f : Frame} {u : Unit} {w : ω}
    (sent : env.sendFrame f s.world = (.ok u, w)) (rest : List Frame) :
    flush env (f :: rest) s = flush env rest { s.note (.handed f) with world := w } := by
  rw [flush]
  dsimp only [note]
  rw [sent]

theorem flush_of_error {s : Session ω} {f : Frame} {e : Error} {w : ω}
    (sent : env.sendFrame f s.world = (.error e, w)) (rest : List Frame) :
    flush env (f :: rest) s =
      { s.note (.handed f) with world := w, held := rest }.push (.failed e.message) := by
  rw [flush]
  dsimp only [note]
  rw [sent]

theorem process_of_step {s : Session ω} {i : Handshake.Input} {m : Handshake}
    {effects : List Handshake.Effect} (step : s.machine.step i = .ok (m, effects)) :
    s.process env i = carryOutAll env effects { s with machine := m, published := m.stage } := by
  rw [process, Handshake.handle_of_step step]

theorem one_le_weight (i : Handshake.Input) : 1 ≤ weight i := by
  unfold weight
  split <;> omega

theorem due_of_next {s : Session ω} {i : Handshake.Input} {rest : List Handshake.Input}
    (next : s.inputs = i :: rest) : s.due = weight i + { s with inputs := rest }.due := by
  rw [due, next]
  rfl

theorem one_le_due {s : Session ω} {i : Handshake.Input} {rest : List Handshake.Input}
    (next : s.inputs = i :: rest) : 1 ≤ s.due := by
  rw [due_of_next next]
  exact Nat.le_add_right_of_le (one_le_weight i)

variable (env) in
/-- **How a session comes to rest**: what it feeds, and the session at the end. -/
inductive Settles : Session ω → List Feeding → Session ω → Prop
  | rest {s : Session ω} (idle : s.Idle) : Settles s [] s
  | step {s s' : Session ω} {i : Handshake.Input} {others : List Handshake.Input}
      {later : List Feeding} (alive : s.phase ≠ .ended) (next : s.inputs = i :: others)
      (settles : Settles ({ s with inputs := others }.process env i) later s') :
      Settles s (⟨s.machine, i⟩ :: later) s'

theorem Settles.pump_eq {s s' : Session ω} {feedings : List Feeding}
    (h : Settles env s feedings s') {n : Nat} (enough : feedings.length ≤ n) :
    s.pump env n = s' ∧ pumped env n s = feedings := by
  induction h generalizing n with
  | rest idle => exact pump_of_idle idle n
  | step alive next _ ih =>
    rw [List.length_cons] at enough
    obtain ⟨m, rfl⟩ : ∃ m, n = m + 1 := Nat.exists_eq_add_one.2 (by omega)
    obtain ⟨session, feedings⟩ := ih (n := m) (by omega)
    obtain ⟨pumps, feeds⟩ := pump_of_next alive next m
    exact ⟨pumps.trans session, feeds.trans (congrArg _ feedings)⟩

/-- What a stimulus comes to, from the way the session settles after it. -/
theorem react_of_settles {s s' : Session ω} {stimulus : Stimulus} {feedings : List Feeding}
    (running : s.phase = .running) (settles : Settles env (s.take env stimulus) feedings s')
    (enough : feedings.length ≤ (s.take env stimulus).due) :
    s.react env stimulus = s' ∧ s.fed env stimulus = feedings := by
  unfold react fed
  rw [running]
  exact settles.pump_eq enough

/-! ## The machine of a session -/

@[simp] theorem machine_note (s : Session ω) (o : Occurrence) : (s.note o).machine = s.machine := rfl

@[simp] theorem machine_push (s : Session ω) (i : Handshake.Input) :
    (s.push i).machine = s.machine := rfl

@[simp] theorem machine_finish (s : Session ω) (reason : CloseReason) :
    (s.finish reason).machine = s.machine := rfl

@[simp] theorem machine_hold (s : Session ω) (f : Frame) : (s.hold f).machine = s.machine := rfl

@[simp] theorem machine_took {α : Type} (s : Session ω) (outcome : Except Error α × ω) :
    (s.took outcome).machine = s.machine := by
  obtain ⟨result, w⟩ := outcome
  cases result <;> rfl

@[simp] theorem machine_described (s : Session ω) (outcome : Except Error String × ω) :
    (s.described outcome).machine = s.machine := by
  obtain ⟨result, w⟩ := outcome
  cases result <;> rfl

@[simp] theorem machine_flush (frames : List Frame) (s : Session ω) :
    (flush env frames s).machine = s.machine := by
  induction frames generalizing s with
  | nil => rfl
  | cons f rest ih =>
    rw [flush]
    split
    · exact ih _
    · rfl

@[simp] theorem machine_carryOut (s : Session ω) (e : Handshake.Effect) :
    (s.carryOut env e).machine = s.machine := by
  cases e <;> simp [carryOut]

@[simp] theorem machine_carryOutAll (effects : List Handshake.Effect) (s : Session ω) :
    (carryOutAll env effects s).machine = s.machine := by
  induction effects generalizing s with
  | nil => rfl
  | cons e rest ih =>
    rw [carryOutAll]
    split
    · rfl
    · rw [ih, machine_carryOut]

theorem machine_process (s : Session ω) (i : Handshake.Input) :
    (s.process env i).machine = (s.machine.feed i).1 := by
  unfold process Handshake.feed
  obtain ⟨m, v | effects⟩ := s.machine.handle i
  · rfl
  · exact machine_carryOutAll effects _

theorem machine_pump (n : Nat) (s : Session ω) :
    (s.pump env n).machine = (s.machine.run ((pumped env n s).map Feeding.input)).1 := by
  induction n generalizing s with
  | zero => rfl
  | succ n ih =>
    rcases idle_or_next s with idle | ⟨i, rest, alive, next⟩
    · obtain ⟨pumps, feeds⟩ := pump_of_idle idle (n + 1)
      rw [pumps, feeds]
      rfl
    · obtain ⟨pumps, feeds⟩ := pump_of_next alive next n
      rw [pumps, feeds, ih, List.map_cons, Handshake.run_cons, machine_process]

theorem machine_hand (s : Session ω) (f : Frame) : (s.hand env f).machine = s.machine := by
  simp [hand]

theorem machine_take (s : Session ω) (stimulus : Stimulus) :
    (s.take env stimulus).machine = s.machine := by
  unfold take
  split <;> (try split) <;> simp [machine_hand]

/-- **A stimulus takes the machine of a session to the one that its feedings lead to.** -/
theorem machine_react (s : Session ω) (stimulus : Stimulus) :
    (s.react env stimulus).machine =
      (s.machine.run ((s.fed env stimulus).map Feeding.input)).1 := by
  unfold react fed
  cases s.phase with
  | ended => rfl
  | running =>
    show ((s.take env stimulus).pump env _).machine = _
    rw [machine_pump, machine_take]
    rfl
  | dialing =>
    cases stimulus with
    | dialed => exact machine_pump _ _
    | _ => rfl

end Session

end TopicMesh
