import TopicMesh.Proofs.Session.LifeCycle

/-!
# The loop of a session ends

A session that is woken works through its inputs in **rounds**: it takes the oldest input
off its queue, gives it to its machine and carries out the effects.  The effects put further
inputs at the end of the queue, so that it need not get shorter, and channel and stream may
do what they like in each round.  The rounds come to an end all the same.

* Effects put only failures and descriptions of the channel into the queue
  (`extends_process`).  A description weighs too much to come of an input, unless that opens
  the stream or brings an offer (`inputs_process`); and neither of these comes of an effect.
* The first failure that a machine meets closes it, and a machine that closes ends the session
  in the same round (`process_of_open`).  No failure after that one is looked at.
* A machine that has closed asks for nothing (`process_of_closed`).

So each round makes a number smaller (`roundsLeft_lt`), which is at most one more than twice
the number of inputs that wait; and no stimulus costs a session more than three of them.
-/

namespace TopicMesh

namespace Handshake

/-- Whether an input may make a machine ask its channel for a description. -/
def Input.prompts : Input → Bool
  | .streamOpened => true
  | .signal (.offer _) => true
  | _ => false

/-- Whether an input is a failure of channel or stream. -/
def Input.isFailure : Input → Bool
  | .failed _ => true
  | _ => false

/-- Whether an input is what comes of an effect: a failure, or the description of the channel. -/
def Input.IsResult : Input → Prop
  | .failed _ => True
  | .localDescription _ => True
  | _ => False

theorem weight_le (i : Input) : Session.weight i ≤ if i.prompts then 4 else 2 := by
  cases i with
  | signal s => cases s <;> simp [Session.weight, Input.prompts]
  | _ => simp [Session.weight, Input.prompts]

theorem Input.IsResult.not_prompts {i : Input} (result : i.IsResult) : i.prompts = false := by
  cases i with
  | failed reason => rfl
  | localDescription description => rfl
  | _ => exact result.elim

variable {h h' : Handshake} {effects : List Effect}

/-- A machine that has closed stays so and asks for nothing. -/
theorem Move.of_closed (move : Move h h' effects) (gone : h.stage = .closed) :
    effects = [] ∧ h'.stage = .closed := by
  cases move <;> simp_all

/-- A machine that meets a failure ends the session, and does nothing else. -/
theorem handle_of_isFailure {i : Input} (failure : i.isFailure = true) (still : h.stage ≠ .closed) :
    ∃ reason, (h.handle i).2 = .ok [.closed reason] := by
  cases i with
  | failed reason => exact ⟨.failed reason, by simp [handle, endWith, allowed, still]⟩
  | _ => cases failure

end Handshake

open Handshake (Effect Input)

namespace Session

variable {ω : Type} {env : Surroundings ω} {s s' : Session ω}

/-! ## What effects put into the queue -/

/-- Whether a session has got further inputs, which come of effects. -/
def Extends (s s' : Session ω) : Prop :=
  ∃ more, s'.inputs = s.inputs ++ more ∧ ∀ i ∈ more, i.IsResult

theorem extends_of_eq (same : s'.inputs = s.inputs) : Extends s s' :=
  ⟨[], by rw [same, List.append_nil], List.forall_mem_nil _⟩

theorem Extends.trans {s₁ s₂ s₃ : Session ω} (first : Extends s₁ s₂) (second : Extends s₂ s₃) :
    Extends s₁ s₃ := by
  obtain ⟨more, inputs, results⟩ := first
  obtain ⟨more', inputs', results'⟩ := second
  refine ⟨more ++ more', ?_, List.forall_mem_append.2 ⟨results, results'⟩⟩
  rw [inputs', inputs, List.append_assoc]

theorem extends_push (s : Session ω) {i : Input} (result : i.IsResult) : Extends s (s.push i) :=
  ⟨[i], rfl, List.forall_mem_singleton.2 result⟩

theorem extends_took {α : Type} (s : Session ω) (outcome : Except Error α × ω) :
    Extends s (s.took outcome) := by
  obtain ⟨e | _, w⟩ := outcome
  · exact extends_push { s with world := w } (i := .failed e.message) trivial
  · exact extends_of_eq rfl

theorem extends_described (s : Session ω) (outcome : Except Error String × ω) :
    Extends s (s.described outcome) := by
  obtain ⟨e | description, w⟩ := outcome
  · exact extends_push { s with world := w } (i := .failed e.message) trivial
  · exact extends_push { s with world := w } (i := .localDescription description) trivial

theorem extends_flush (frames : List Frame) (s : Session ω) : Extends s (flush env frames s) := by
  induction frames generalizing s with
  | nil => exact extends_of_eq rfl
  | cons f rest ih =>
    rcases sent : env.sendFrame f s.world with ⟨e | _, w⟩
    · rw [flush_of_error sent]
      let failing : Session ω := { s.note (.handed f) with world := w, held := rest }
      exact extends_push failing (i := .failed e.message) trivial
    · rw [flush_of_ok sent]
      exact ih { s.note (.handed f) with world := w }

variable (env) in
theorem extends_carryOut (s : Session ω) (e : Effect) : Extends s (s.carryOut env e) := by
  cases e with
  | send m => exact extends_took ..
  | createOffer => exact extends_described ..
  | createAnswer => exact extends_described ..
  | applyDescription kind description => exact extends_took ..
  | applyCandidate c => exact extends_of_eq rfl
  | ready => exact extends_flush s.held (s.note .ready)
  | closed reason => exact extends_of_eq rfl

theorem extends_carryOutAll (effects : List Effect) (s : Session ω) :
    Extends s (carryOutAll env effects s) := by
  induction effects generalizing s with
  | nil => exact extends_of_eq rfl
  | cons e rest ih =>
    by_cases ended : s.phase = .ended
    · rw [carryOutAll_of_ended ended]
      exact extends_of_eq rfl
    · rw [carryOutAll_cons ended]
      exact (extends_carryOut env s e).trans (ih (s.carryOut env e))

variable (env) in
theorem extends_process (s : Session ω) (i : Input) : Extends s (s.process env i) := by
  rcases process_cases env s i with ⟨-, -, same⟩ | ⟨m, effects, -, -, is⟩
  · rw [same]
    exact extends_of_eq rfl
  · rw [is]
    exact extends_carryOutAll effects { s with machine := m, published := m.stage }

/-- Of the results of effects, all but the failures weigh two. -/
theorem two_mul_countP_le_load {more : List Input} (results : ∀ i ∈ more, i.IsResult) :
    2 * more.countP (!·.isFailure) ≤ load more := by
  induction more with
  | nil => exact Nat.le_refl 0
  | cons i rest ih =>
    obtain ⟨result, others⟩ := List.forall_mem_cons.1 results
    have first : 2 * (if (!i.isFailure) = true then 1 else 0) ≤ weight i := by
      cases i with
      | failed reason => exact Nat.zero_le 1
      | localDescription description => exact Nat.le_refl 2
      | _ => exact result.elim
    have rest_le := ih others
    rw [List.countP_cons]
    show _ ≤ weight i + load rest
    omega

variable (env) in
/-- **An input brings failures**, and one description if it prompts the machine; they come
after the inputs that wait. -/
theorem inputs_process (s : Session ω) (i : Input) :
    ∃ more, (s.process env i).inputs = s.inputs ++ more ∧ (∀ j ∈ more, j.IsResult) ∧
      more.countP (!·.isFailure) ≤ if i.prompts then 1 else 0 := by
  obtain ⟨more, inputs, results⟩ := extends_process env s i
  refine ⟨more, inputs, results, ?_⟩
  -- what is brought weighs less than the input, and a description weighs two
  have lighter : load (s.process env i).inputs < weight i + load s.inputs :=
    due_process env (s := { s with inputs := i :: s.inputs }) rfl
  have described := two_mul_countP_le_load results
  have weight := Handshake.weight_le i
  rw [inputs, load_append] at lighter
  by_cases prompts : i.prompts = true
  · rw [if_pos prompts] at weight ⊢
    omega
  · rw [if_neg prompts] at weight ⊢
    omega

/-! ## What becomes of the session -/

/-- **A session that has been finished**: it is over, its owner sees it closed and was told
why, and the hook ran as the last thing. -/
structure Finished (s : Session ω) : Prop where
  phase : s.phase = .ended
  stage : s.machine.stage = .closed
  shown : s.published = .closed
  told : ∃ before reason, s.log = before ++ [.closed reason, .hook]

theorem phase_carryOutAll_of_not_mem {effects : List Effect}
    (goes : ∀ reason, .closed reason ∉ effects) (s : Session ω) :
    (carryOutAll env effects s).phase = s.phase := by
  induction effects generalizing s with
  | nil => rfl
  | cons e rest ih =>
    by_cases ended : s.phase = .ended
    · rw [carryOutAll_of_ended ended]
    · have first : (s.carryOut env e).phase = s.phase :=
        phase_carryOut_of_ne s fun reason is => goes reason (is ▸ List.mem_cons_self)
      rw [carryOutAll_cons ended, ih fun reason there => goes reason (List.mem_cons_of_mem e there)]
      exact first

theorem closing_carryOutAll {effects : List Effect} {reason : CloseReason}
    (there : .closed reason ∈ effects) (going : s.phase ≠ .ended)
    (closed : s.machine.stage = .closed) : (carryOutAll env effects s).Finished := by
  induction effects generalizing s with
  | nil => exact absurd there List.not_mem_nil
  | cons e rest ih =>
    rw [carryOutAll_cons going]
    by_cases last : ∃ reason, e = .closed reason
    · obtain ⟨reason, rfl⟩ := last
      rw [carryOutAll_of_ended rfl]
      exact ⟨rfl, closed, rfl, s.log, reason, List.append_assoc ..⟩
    · have goes : ∀ reason, e ≠ .closed reason := fun reason is => last ⟨reason, is⟩
      have later : .closed reason ∈ rest := (List.mem_cons.1 there).resolve_left (goes reason).symm
      refine ih later ?_ ?_
      · rw [phase_carryOut_of_ne s goes]
        exact going
      · rw [machine_carryOut]
        exact closed

variable (env) in
/-- A session whose machine has closed makes nothing of an input. -/
theorem process_of_closed (gone : s.machine.stage = .closed) (i : Input) :
    (s.process env i).phase = s.phase ∧ (s.process env i).inputs = s.inputs ∧
      (s.process env i).machine.stage = .closed := by
  rcases process_cases env s i with ⟨-, -, same⟩ | ⟨m, effects, -, move, is⟩
  · rw [same]
    exact ⟨rfl, rfl, gone⟩
  · obtain ⟨rfl, closed⟩ := move.of_closed gone
    rw [is]
    exact ⟨rfl, rfl, closed⟩

variable (env) in
/-- A session whose machine has not closed is finished by an input, or goes on; by a failure
it is finished. -/
theorem process_of_open (going : s.phase ≠ .ended) (still : s.machine.stage ≠ .closed) (i : Input) :
    (s.process env i).Finished ∨
      (s.process env i).phase = s.phase ∧ (s.process env i).machine.stage ≠ .closed ∧
        i.isFailure = false := by
  have fails : i.isFailure = true → ∃ reason, (s.machine.handle i).2 = .ok [.closed reason] :=
    fun failure => Handshake.handle_of_isFailure failure still
  rcases process_cases env s i with ⟨v, turn, same⟩ | ⟨m, effects, turn, move, is⟩
  · rw [turn] at fails
    rw [same]
    refine .inr ⟨rfl, still, Bool.eq_false_iff.2 fun failure => ?_⟩
    -- a failure is no violation
    obtain ⟨reason, ends⟩ := fails failure
    cases ends
  · rw [turn] at fails
    rw [is]
    have closes := move.closed_iff still
    by_cases told : ∃ reason, .closed reason ∈ effects
    · obtain ⟨reason, there⟩ := told
      exact .inl (closing_carryOutAll there going (closes.2 ⟨reason, there⟩))
    · refine .inr ⟨?_, ?_, Bool.eq_false_iff.2 fun failure => ?_⟩
      · exact phase_carryOutAll_of_not_mem (fun reason there => told ⟨reason, there⟩) _
      · rw [machine_carryOutAll]
        exact fun closed => told (closes.1 closed)
      · obtain ⟨reason, ends⟩ := fails failure
        obtain rfl : effects = [.closed reason] := Except.ok.inj ends
        exact told ⟨reason, List.mem_singleton_self _⟩

/-! ## Rounds -/

/-- **One round of the loop**: a session that has not ended takes its oldest input, gives it
to its machine and carries out the effects.  The state of channel and stream may hold all
that they are to answer, so each call of a round may succeed or fail on its own. -/
inductive Round (env : Surroundings ω) (s : Session ω) : Session ω → Prop
  | take (i : Input) (rest : List Input) (going : s.phase ≠ .ended) (next : s.inputs = i :: rest) :
    Round env s ({ s with inputs := rest }.process env i)

/-- Some rounds, with what channel and stream do in each of them. -/
inductive Rounds : List (Surroundings ω) → Session ω → Session ω → Prop
  | rest (s : Session ω) : Rounds [] s s
  | next {env : Surroundings ω} {behaviours : List (Surroundings ω)} {s t s' : Session ω}
      (round : Round env s t) (later : Rounds behaviours t s') : Rounds (env :: behaviours) s s'

/-- How many inputs a machine that has not closed can meet, by its queue: those before the
first failure, a description for each of them that prompts it, and one failure. -/
def prospects : List Input → Nat
  | [] => 1
  | i :: rest => if i.isFailure then 1 else prospects rest + (if i.prompts then 1 else 0) + 1

/-- How many rounds a session has before it, at the most. -/
def roundsLeft (s : Session ω) : Nat :=
  if s.phase = .ended then 0
  else if s.machine.stage = .closed then s.inputs.length
  else prospects s.inputs

theorem one_le_prospects (queue : List Input) : 1 ≤ prospects queue := by
  cases queue with
  | nil => exact Nat.le_refl 1
  | cons i rest =>
    rw [prospects]
    split
    · exact Nat.le_refl 1
    · exact Nat.le_add_left ..

theorem prospects_le (queue : List Input) :
    prospects queue ≤ queue.length + queue.countP Input.prompts + 1 := by
  induction queue with
  | nil => exact Nat.le_refl 1
  | cons i rest ih =>
    rw [prospects, List.length_cons, List.countP_cons]
    by_cases failed : i.isFailure = true
    · rw [if_pos failed]
      omega
    · rw [if_neg failed]
      omega

/-- Results of effects prompt nothing, and the first failure ends their prospects. -/
theorem prospects_of_results {more : List Input} (results : ∀ i ∈ more, i.IsResult) :
    prospects more ≤ 1 + more.countP (!·.isFailure) := by
  induction more with
  | nil => exact Nat.le_refl 1
  | cons i rest ih =>
    obtain ⟨result, others⟩ := List.forall_mem_cons.1 results
    have rest_le := ih others
    rw [prospects, result.not_prompts, if_neg Bool.false_ne_true, List.countP_cons]
    by_cases failed : i.isFailure = true
    · rw [if_pos failed]
      omega
    · rw [if_neg failed, if_pos (by simp [failed])]
      omega

theorem prospects_append_le {more : List Input} (results : ∀ i ∈ more, i.IsResult)
    (queue : List Input) :
    prospects (queue ++ more) ≤ prospects queue + more.countP (!·.isFailure) := by
  induction queue with
  | nil => exact prospects_of_results results
  | cons i rest ih =>
    rw [List.cons_append, prospects, prospects]
    split
    · exact Nat.le_add_right ..
    · omega

theorem roundsLeft_of_ended (ended : s.phase = .ended) : s.roundsLeft = 0 :=
  if_pos ended

theorem roundsLeft_of_closed (going : s.phase ≠ .ended) (gone : s.machine.stage = .closed) :
    s.roundsLeft = s.inputs.length := by
  rw [roundsLeft, if_neg going, if_pos gone]

theorem roundsLeft_of_open (going : s.phase ≠ .ended) (still : s.machine.stage ≠ .closed) :
    s.roundsLeft = prospects s.inputs := by
  rw [roundsLeft, if_neg going, if_neg still]

theorem roundsLeft_le (s : Session ω) :
    s.roundsLeft ≤ s.inputs.length + s.inputs.countP Input.prompts + 1 := by
  unfold roundsLeft
  split
  · exact Nat.zero_le _
  · split
    · omega
    · exact prospects_le s.inputs

/-- **Each round leaves fewer rounds**, whatever channel and stream do in it. -/
theorem roundsLeft_lt (round : Round env s s') : s'.roundsLeft < s.roundsLeft := by
  obtain ⟨i, rest, going, next⟩ := round
  let taken : Session ω := { s with inputs := rest }
  by_cases gone : s.machine.stage = .closed
  · obtain ⟨phase, inputs, closed⟩ := process_of_closed env (s := taken) gone i
    rw [roundsLeft_of_closed going gone, roundsLeft_of_closed (phase ▸ going) closed, inputs, next]
    exact Nat.lt_succ_self _
  · rw [roundsLeft_of_open going gone]
    rcases process_of_open env (s := taken) going gone i with finished | ⟨phase, still, calm⟩
    · rw [roundsLeft_of_ended finished.phase]
      exact one_le_prospects s.inputs
    · obtain ⟨more, inputs, results, few⟩ := inputs_process env taken i
      have longer : prospects (rest ++ more) ≤ prospects rest + more.countP (!·.isFailure) :=
        prospects_append_le results rest
      have spent : prospects (i :: rest) = prospects rest + (if i.prompts then 1 else 0) + 1 := by
        rw [prospects, calm, if_neg Bool.false_ne_true]
      rw [roundsLeft_of_open (phase ▸ going) still, inputs, next, spent]
      exact Nat.lt_succ_of_le (Nat.le_trans longer (Nat.add_le_add_left few _))

theorem Rounds.length_add_le {behaviours : List (Surroundings ω)}
    (rounds : Rounds behaviours s s') : behaviours.length + s'.roundsLeft ≤ s.roundsLeft := by
  induction rounds with
  | rest s => exact Nat.le_of_eq (Nat.zero_add _)
  | next round _ ih =>
    have fewer := roundsLeft_lt round
    rw [List.length_cons]
    omega

/-- **How many inputs a session works through**: at most those that wait, a description for
each of them that prompts the machine, and one failure. -/
theorem Rounds.length_le {behaviours : List (Surroundings ω)} (rounds : Rounds behaviours s s') :
    behaviours.length ≤ s.inputs.length + s.inputs.countP Input.prompts + 1 :=
  Nat.le_trans (Nat.le_of_add_right_le rounds.length_add_le) s.roundsLeft_le

/-! ## Where the rounds stop -/

/-- A round finishes a session, or leaves it in its phase and does not close its machine. -/
theorem Round.finished_or_goes_on (round : Round env s s') :
    s'.Finished ∨ s'.phase = s.phase ∧ (s'.machine.stage = .closed → s.machine.stage = .closed) := by
  obtain ⟨i, rest, going, next⟩ := round
  let taken : Session ω := { s with inputs := rest }
  by_cases gone : s.machine.stage = .closed
  · exact .inr ⟨(process_of_closed env (s := taken) gone i).1, fun _ => gone⟩
  · rcases process_of_open env (s := taken) going gone i with finished | ⟨phase, still, -⟩
    · exact .inl finished
    · exact .inr ⟨phase, fun closed => absurd closed still⟩

theorem Rounds.eq_of_ended {behaviours : List (Surroundings ω)} (rounds : Rounds behaviours s s')
    (ended : s.phase = .ended) : s' = s := by
  cases rounds with
  | rest => rfl
  | next round _ =>
    obtain ⟨i, rest, going, next⟩ := round
    exact absurd ended going

/-- Several rounds do so, too. -/
theorem Rounds.finished_or_goes_on {behaviours : List (Surroundings ω)}
    (rounds : Rounds behaviours s s') :
    s'.Finished ∨ s'.phase = s.phase ∧ (s'.machine.stage = .closed → s.machine.stage = .closed) := by
  induction rounds with
  | rest s => exact .inr ⟨rfl, id⟩
  | next round later ih =>
    rcases round.finished_or_goes_on with finished | ⟨phase, open_⟩
    · rw [later.eq_of_ended finished.phase]
      exact .inl finished
    · rcases ih with finished | ⟨phase', open_'⟩
      · exact .inl finished
      · exact .inr ⟨phase'.trans phase, fun closed => open_ (open_' closed)⟩

/-- Whether a session waits for the next stimulus and has worked off its queue. -/
structure Awaits (s : Session ω) : Prop where
  running : s.phase = .running
  empty : s.inputs = []

/-- A session stops going through rounds just if it is idle. -/
theorem no_round_iff (env : Surroundings ω) (s : Session ω) : (∀ t, ¬Round env s t) ↔ s.Idle := by
  constructor
  · intro stuck
    rcases s.idle_or_next with idle | ⟨i, rest, going, next⟩
    · exact idle
    · exact absurd (Round.take i rest going next) (stuck _)
  · rintro idle t ⟨i, rest, going, next⟩
    rcases idle with ended | empty
    · exact going ended
    · rw [empty] at next
      cases next

/-- **Whatever channel and stream do in each round**, some rounds leave the session idle. -/
theorem exists_rounds_to_idle (behaviour : Nat → Surroundings ω) (s : Session ω) :
    ∃ n s', Rounds ((List.range n).map behaviour) s s' ∧ s'.Idle := by
  induction left : s.roundsLeft using Nat.strongRecOn generalizing s behaviour with
  | ind left ih =>
    rcases s.idle_or_next with idle | ⟨i, rest, going, next⟩
    · exact ⟨0, s, .rest s, idle⟩
    · have round : Round (behaviour 0) s _ := .take i rest going next
      have fewer := left ▸ roundsLeft_lt round
      -- the rounds after the first one have the rest of the behaviour
      obtain ⟨n, s', rounds, idle⟩ := ih _ fewer (behaviour ∘ Nat.succ) _ rfl
      refine ⟨n + 1, s', ?_, idle⟩
      rw [List.range_succ_eq_map, List.map_cons, List.map_map]
      exact .next round rounds

variable (env) in
/-- Working through inputs is a course of rounds, one for each input that is fed. -/
theorem rounds_pump (n : Nat) (s : Session ω) :
    Rounds (List.replicate (pumped env n s).length env) s (s.pump env n) := by
  induction n generalizing s with
  | zero => exact .rest s
  | succ n ih =>
    rcases s.idle_or_next with idle | ⟨i, rest, going, next⟩
    · rw [(pump_of_idle idle (n + 1)).1, (pump_of_idle idle (n + 1)).2]
      exact .rest s
    · rw [(pump_of_next going next n).1, (pump_of_next going next n).2]
      exact .next (.take i rest going next) (ih _)

/-- **How the loop of a session ends.** -/
structure LoopEnds (s : Session ω) : Prop where
  /-- Whatever channel and stream do in each round, some round is the last. -/
  ends : ∀ behaviour : Nat → Surroundings ω, ∃ n s',
    Rounds ((List.range n).map behaviour) s s' ∧ ∀ env t, ¬Round env s' t
  /-- It takes at most the inputs that wait, a description for each of them that prompts the
  machine, and one failure. -/
  bounded : ∀ behaviours s', Rounds behaviours s s' →
    behaviours.length ≤ s.inputs.length + s.inputs.countP Input.prompts + 1
  /-- Where no round follows, the session is finished, or awaits the next stimulus; it does
  not do so with a machine that has closed meanwhile. -/
  stops : ∀ behaviours s' env, Rounds behaviours s s' → (∀ t, ¬Round env s' t) →
    s'.Finished ∨ s'.Awaits ∧ (s'.machine.stage = .closed → s.machine.stage = .closed)
  /-- Settling is the course of rounds up to there. -/
  settles : ∀ env, ∃ n, Rounds (List.replicate n env) s (s.settle env) ∧
    ∀ t, ¬Round env (s.settle env) t

/-- **The loop of a session ends.**  Whatever the machine of a session that runs is, whatever
waits in its queue and whatever channel and stream do each time that they are called, the
session works through finitely many inputs; then it is finished, or awaits the next stimulus
with an empty queue. -/
theorem loop_ends (running : s.phase = .running) : LoopEnds s where
  ends behaviour := by
    obtain ⟨n, s', rounds, idle⟩ := exists_rounds_to_idle behaviour s
    exact ⟨n, s', rounds, fun env => (no_round_iff env s').2 idle⟩
  bounded _ _ rounds := rounds.length_le
  stops behaviours s' env rounds stuck := by
    rcases rounds.finished_or_goes_on with finished | ⟨phase, open_⟩
    · exact .inl finished
    · right
      have running' : s'.phase = .running := phase.trans running
      rcases (no_round_iff env s').1 stuck with ended | empty
      · exact absurd ended (alive_of_running running')
      · exact ⟨⟨running', empty⟩, open_⟩
  settles env := ⟨_, rounds_pump env s.due s, (no_round_iff env _).2 (idle_settle s)⟩

/-- So it is with a responder in whose queue an offer, a failure and more are left. -/
theorem loop_ends_crowded :
    let crowded : Session JoinedEnd :=
      { accept JoinedEnd.surroundings ⟨1000, 4, 2⟩ (.new .responder "session" "host" 7) with
        inputs := [.signal (.offer "v=0"), .channelOpen, .failed "gone", .timeout, .streamOpened] }
    crowded.phase = .running ∧ LoopEnds crowded := by
  intro crowded
  have running : crowded.phase = .running := by decide
  exact ⟨running, loop_ends running⟩

/-! ## Between two stimuli -/

variable (env) in
theorem length_pumped_le (n : Nat) (s : Session ω) :
    (pumped env n s).length ≤ s.inputs.length + s.inputs.countP Input.prompts + 1 := by
  have bounded := (rounds_pump env n s).length_le
  rwa [List.length_replicate] at bounded

variable (env) in
/-- A stimulus brings one input at most. -/
theorem length_inputs_take_le (empty : s.inputs = []) (stimulus : Stimulus) :
    (s.take env stimulus).inputs.length ≤ 1 := by
  have nothing : s.inputs.length ≤ 1 := by simp [empty]
  have one (i : Input) : (s.push i).inputs.length ≤ 1 := by simp [push, empty]
  cases stimulus with
  | text t =>
    rw [take]
    split
    · exact one _
    · exact nothing
  | send f =>
    rw [take]
    split
    · rcases sent : env.sendFrame f s.world with ⟨e | _, w⟩
      · simp [hand, note, took, push, sent, empty]
      · simp [hand, note, took, sent, empty]
    · exact nothing
  | channel e =>
    cases e with
    | frame f => exact nothing
    | _ => exact one _
  | deadline =>
    rw [take]
    split
    · exact nothing
    · exact one _
  | dialed => exact nothing
  | dialFailed reason => exact nothing
  | _ => exact one _

variable (env) in
theorem length_fed_le (idle : s.Idle) (stimulus : Stimulus) : (s.fed env stimulus).length ≤ 3 := by
  -- one input that waits makes three at the most
  have few {t : Session ω} (single : t.inputs.length ≤ 1) : (pumped env t.due t).length ≤ 3 := by
    have bounded := length_pumped_le env t.due t
    have prompted : t.inputs.countP Input.prompts ≤ t.inputs.length := List.countP_le_length
    omega
  rw [fed]
  cases phase : s.phase with
  | ended => exact Nat.zero_le 3
  | running =>
    rcases idle with ended | empty
    · exact absurd ended (alive_of_running phase)
    · exact few (length_inputs_take_le env empty stimulus)
  | dialing =>
    cases stimulus with
    | dialed => exact few (t := s.opened env) (Nat.le_refl 1)
    | _ => simp [fedDialing]

variable (env) in
theorem idle_react (idle : s.Idle) (stimulus : Stimulus) : (s.react env stimulus).Idle := by
  rw [react]
  cases phase : s.phase with
  | ended => exact idle
  | running => exact idle_settle _
  | dialing =>
    cases stimulus with
    | dialed => exact idle_settle _
    | dialFailed reason => exact .inl rfl
    | deadline => exact .inl rfl
    | close => exact .inl rfl
    | _ => exact idle

variable (env) in
theorem idle_run (idle : s.Idle) (stimuli : List Stimulus) : (s.run env stimuli).Idle := by
  induction stimuli generalizing s with
  | nil => exact idle
  | cons stimulus rest ih => exact ih (idle_react env idle stimulus)

variable (env) in
theorem idle_opening (limits : SessionLimits) (world : ω) (role : Role) :
    (opening env limits world role).Idle := by
  cases role with
  | initiator => exact .inr rfl
  | responder => exact idle_settle _

/-- **A stimulus costs a session three inputs at most**, whatever happened to it before, and
leaves none of them. -/
theorem stimulus_costs_three (env : Surroundings ω) (limits : SessionLimits) (world : ω)
    (role : Role) (stimuli : List Stimulus) (stimulus : Stimulus) :
    (((opening env limits world role).run env stimuli).fed env stimulus).length ≤ 3 ∧
      ((opening env limits world role).run env (stimuli ++ [stimulus])).Idle := by
  have idle := idle_opening env limits world role
  exact ⟨length_fed_le env (idle_run env idle stimuli) stimulus,
    idle_run env idle (stimuli ++ [stimulus])⟩

/-- Three inputs for one: the stream of an initiator opens, its channel describes itself, and
the offer cannot be sent. -/
example :
    let mute : Surroundings JoinedEnd :=
      { JoinedEnd.surroundings with sendSignal := fun _ w => (.error .sessionClosed, w) }
    ((connect ⟨1000, 4, 2⟩ (.new .initiator "session" "host" 7)).fed mute .dialed).length = 3 := by
  decide

end Session

end TopicMesh
