import TopicMesh.Proofs.Session.Conduct

/-!
# Sessions come to rest

Carrying out the effects of one input may bring further inputs.  An input weighs more
than all that its effects can bring (`burden_handle`), so the inputs that wait weigh less
after each one that is worked through (`due_process`).  Hence a session always settles:
it works through everything, unless it ends first (`idle_settle`).

What a step of the handshake means to the session is told by the effects: they are
**calm**, or the session becomes ready, or it ends (`Move.course`).
-/

namespace TopicMesh

namespace Handshake

/-! ## What effects bring -/

/-- The most that an effect may bring, by the weight of the inputs. -/
def Effect.burden : Effect → Nat
  | .send _ => 1
  | .createOffer => 2
  | .createAnswer => 2
  | .applyDescription _ _ => 1
  | .applyCandidate _ => 0
  | .ready => 1
  | .closed _ => 0

/-- The most that some effects may bring. -/
def burden (effects : List Effect) : Nat :=
  effects.foldr (fun e n => e.burden + n) 0

theorem burden_applyCandidates (waiting : List Candidate) :
    burden (waiting.map .applyCandidate) = 0 := by
  induction waiting with
  | nil => rfl
  | cons c rest ih => exact (Nat.zero_add _).trans ih

/-- Whether what a turn brings is less than a weight. -/
def Turn.LighterThan (turn : Turn) (n : Nat) : Prop :=
  ∀ effects, turn.2 = .ok effects → burden effects < n

variable {h : Handshake}

theorem lighter_ok {result : Handshake × List Effect} {n : Nat} (light : burden result.2 < n) :
    Turn.LighterThan (allowed result) n :=
  fun _ same => Except.ok.inj same ▸ light

theorem lighter_error (v : Violation) (n : Nat) : Turn.LighterThan (h, .error v) n :=
  nofun

theorem lighter_endWith (reason : CloseReason) (farewell : Bool) :
    Turn.LighterThan (allowed (h.endWith reason farewell)) 2 := by
  refine lighter_ok ?_
  unfold endWith
  split
  · exact Nat.two_pos
  · dsimp only
    split
    · exact Nat.one_lt_two
    · exact Nat.two_pos

theorem lighter_endWith_silently (reason : CloseReason) :
    Turn.LighterThan (allowed (h.endWith reason false)) 1 := by
  refine lighter_ok ?_
  unfold endWith
  split <;> exact Nat.one_pos

theorem lighter_onSignal (s : Signal) : (h.onSignal s).LighterThan (Session.weight (.signal s)) := by
  unfold onSignal
  split
  · exact lighter_error _ _
  · cases s with
    | offer description =>
      simp only [onOffer]
      split
      · exact lighter_ok (show 3 < 4 by decide)
      · exact lighter_error _ _
    | answer description =>
      simp only [onAnswer]
      split
      · refine lighter_ok ?_
        show 1 + burden _ < 2
        rw [burden_applyCandidates]
        decide
      · exact lighter_error _ _
    | candidate c =>
      simp only [onCandidate]
      split
      · exact lighter_ok Nat.one_pos
      · split
        · exact lighter_ok Nat.one_pos
        · exact lighter_error _ _
    | bye => exact lighter_endWith_silently .remoteBye

theorem lighter_onLocalDescription (description : String) :
    (h.onLocalDescription description).LighterThan 2 := by
  unfold onLocalDescription
  split
  · split
    · exact lighter_ok (show 1 < 2 by decide)
    · exact lighter_error _ _
  · split
    · refine lighter_ok ?_
      show 1 + burden _ < 2
      rw [burden_applyCandidates]
      decide
    · exact lighter_error _ _

/-- **What an input brings weighs less than the input.** -/
theorem burden_handle (i : Input) : (h.handle i).LighterThan (Session.weight i) := by
  cases i with
  | start =>
    simp only [handle, onStart]
    split
    · exact lighter_ok Nat.one_pos
    · exact lighter_error _ _
  | streamOpened =>
    simp only [handle, onStreamOpened]
    split
    · split
      · exact lighter_ok (show 2 < 3 by decide)
      · exact lighter_ok (show 0 < 3 by decide)
    · exact lighter_error _ _
  | localDescription description => exact lighter_onLocalDescription description
  | signal s => exact lighter_onSignal s
  | localCandidate c =>
    simp only [handle, onLocalCandidate]
    split
    · exact lighter_error _ _
    · split
      · exact lighter_error _ _
      · exact lighter_ok (show 1 < 2 by decide)
  | channelOpen =>
    simp only [handle, onChannelOpen]
    split
    · exact lighter_ok (show 1 < 2 by decide)
    · exact lighter_ok (show 0 < 2 by decide)
    · exact lighter_error _ _
  | channelClosed => exact lighter_endWith_silently .channelClosed
  | streamClosed => exact lighter_endWith_silently .streamClosed
  | timeout =>
    simp only [handle, onTimeout]
    split
    · exact lighter_ok (show 0 < 2 by decide)
    · exact lighter_endWith .timeout true
  | failed reason => exact lighter_endWith_silently (.failed reason)
  | close => exact lighter_endWith .requested true

end Handshake

namespace Session

variable {ω : Type} {env : Surroundings ω}

/-! ## What waits -/

/-- How much inputs weigh together. -/
def load (inputs : List Handshake.Input) : Nat :=
  inputs.foldr (fun i n => weight i + n) 0

theorem load_append (inputs more : List Handshake.Input) :
    load (inputs ++ more) = load inputs + load more := by
  induction inputs with
  | nil => exact (Nat.zero_add _).symm
  | cons i rest ih =>
    show weight i + load (rest ++ more) = weight i + load rest + load more
    omega

theorem due_push (s : Session ω) (i : Handshake.Input) : (s.push i).due = s.due + weight i :=
  load_append s.inputs [i]

theorem due_took {α : Type} (s : Session ω) (outcome : Except Error α × ω) :
    (s.took outcome).due ≤ s.due + 1 := by
  obtain ⟨_ | _, w⟩ := outcome
  · exact Nat.le_of_eq (due_push { s with world := w } _)
  · exact Nat.le_succ _

theorem due_described (s : Session ω) (outcome : Except Error String × ω) :
    (s.described outcome).due ≤ s.due + 2 := by
  obtain ⟨_ | _, w⟩ := outcome
  · exact Nat.le_succ_of_le (Nat.le_of_eq (due_push { s with world := w } _))
  · exact Nat.le_of_eq (due_push { s with world := w } _)

theorem due_flush (frames : List Frame) (s : Session ω) : (flush env frames s).due ≤ s.due + 1 := by
  induction frames generalizing s with
  | nil => exact Nat.le_succ _
  | cons f rest ih =>
    rw [flush]
    split
    · exact ih _
    · next e w _ => exact Nat.le_of_eq (due_push { s with world := w, held := rest } (.failed e.message))

variable (env) in
theorem due_carryOut (s : Session ω) (e : Handshake.Effect) :
    (s.carryOut env e).due ≤ s.due + e.burden := by
  cases e with
  | send m => exact due_took ..
  | createOffer => exact due_described ..
  | createAnswer => exact due_described ..
  | applyDescription kind description => exact due_took ..
  | applyCandidate c => exact Nat.le_refl _
  | ready => exact due_flush s.held (s.note .ready)
  | closed reason => exact Nat.le_refl _

theorem due_carryOutAll (effects : List Handshake.Effect) (s : Session ω) :
    (carryOutAll env effects s).due ≤ s.due + Handshake.burden effects := by
  induction effects generalizing s with
  | nil => exact Nat.le_refl _
  | cons e rest ih =>
    by_cases alive : s.phase = .ended
    · rw [carryOutAll, alive]
      exact Nat.le_add_right ..
    · rw [carryOutAll_cons alive]
      have first := s.due_carryOut env e
      have others := ih (s.carryOut env e)
      show _ ≤ s.due + (e.burden + Handshake.burden rest)
      omega

theorem carryOutAll_of_ended {s : Session ω} (ended : s.phase = .ended)
    (effects : List Handshake.Effect) : carryOutAll env effects s = s := by
  cases effects with
  | nil => rfl
  | cons e rest => rw [carryOutAll, ended]

theorem carryOutAll_append (effects more : List Handshake.Effect) (s : Session ω) :
    carryOutAll env (effects ++ more) s = carryOutAll env more (carryOutAll env effects s) := by
  induction effects generalizing s with
  | nil => rfl
  | cons e rest ih =>
    by_cases ended : s.phase = .ended
    · simp only [carryOutAll_of_ended ended]
    · rw [List.cons_append, carryOutAll_cons ended, carryOutAll_cons ended, ih]

/-! ## One input -/

variable (env) in
/-- What an input does to a session: nothing if it is a violation, or else the effects of
a move. -/
theorem process_cases (s : Session ω) (i : Handshake.Input) :
    (∃ v, s.machine.handle i = (s.machine, .error v) ∧ s.process env i = s) ∨
    ∃ m effects, s.machine.handle i = (m, .ok effects) ∧ Handshake.Move s.machine m effects ∧
      s.process env i = carryOutAll env effects { s with machine := m, published := m.stage } := by
  have moves := Handshake.moves_handle (h := s.machine) i
  unfold process
  cases turn : s.machine.handle i with
  | mk m result =>
    rw [turn] at moves
    cases result with
    | error v =>
      obtain rfl : m = s.machine := moves.unchanged v rfl
      exact .inl ⟨v, rfl, rfl⟩
    | ok effects => exact .inr ⟨m, effects, rfl, moves.move effects rfl, rfl⟩

variable (env) in
/-- **What waits weighs less after each input.** -/
theorem due_process {s : Session ω} {i : Handshake.Input} {rest : List Handshake.Input}
    (next : s.inputs = i :: rest) : ({ s with inputs := rest }.process env i).due < s.due := by
  have one := one_le_weight i
  rw [due_of_next next]
  rcases process_cases env { s with inputs := rest } i with ⟨-, -, same⟩ | ⟨m, effects, turn, -, is⟩
  · rw [same]
    omega
  · have lighter : Handshake.burden effects < weight i :=
      Handshake.burden_handle i effects (congrArg Prod.snd turn)
    rw [is]
    refine Nat.lt_of_le_of_lt (due_carryOutAll effects _) ?_
    rw [Nat.add_comm]
    exact Nat.add_lt_add_right lighter _

theorem idle_pump {s : Session ω} {n : Nat} (enough : s.due ≤ n) : (s.pump env n).Idle := by
  induction n generalizing s with
  | zero =>
    rcases s.idle_or_next with idle | ⟨i, rest, -, next⟩
    · exact idle
    · -- no input weighs nothing
      have := one_le_due next
      omega
  | succ n ih =>
    rcases s.idle_or_next with idle | ⟨i, rest, alive, next⟩
    · rw [(pump_of_idle idle (n + 1)).1]
      exact idle
    · rw [(pump_of_next alive next n).1]
      have lighter := due_process env next
      exact ih (by omega)

/-- **A session always settles**: it works through all inputs, unless it ends first. -/
theorem idle_settle (s : Session ω) : (s.settle env).Idle :=
  idle_pump (Nat.le_refl s.due)

/-- What every input keeps is kept by settling. -/
theorem settle_induction {P : Session ω → Prop}
    (process : ∀ s i rest, P s → s.phase ≠ .ended → s.inputs = i :: rest →
      P ({ s with inputs := rest }.process env i))
    {s : Session ω} (start : P s) : P (s.settle env) := by
  have pump : ∀ n s, P s → P (s.pump env n) := by
    intro n
    induction n with
    | zero => exact fun s start => start
    | succ n ih =>
      intro s start
      rcases s.idle_or_next with idle | ⟨i, rest, alive, next⟩
      · rwa [(pump_of_idle idle (n + 1)).1]
      · rw [(pump_of_next alive next n).1]
        exact ih _ (process s i rest start alive next)
  exact pump _ s start

/-! ## The phase -/

theorem phase_took {α : Type} (s : Session ω) (outcome : Except Error α × ω) :
    (s.took outcome).phase = s.phase := by
  obtain ⟨_ | _, w⟩ := outcome <;> rfl

theorem phase_described (s : Session ω) (outcome : Except Error String × ω) :
    (s.described outcome).phase = s.phase := by
  obtain ⟨_ | _, w⟩ := outcome <;> rfl

theorem phase_flush (frames : List Frame) (s : Session ω) :
    (flush env frames s).phase = s.phase := by
  induction frames generalizing s with
  | nil => rfl
  | cons f rest ih =>
    rcases sent : env.sendFrame f s.world with ⟨_ | _, w⟩
    · rw [flush_of_error sent]
      rfl
    · rw [flush_of_ok sent, ih]
      rfl

theorem phase_carryOut_of_ne (s : Session ω) {e : Handshake.Effect}
    (goes : ∀ reason, e ≠ .closed reason) : (s.carryOut env e).phase = s.phase := by
  cases e with
  | send m => exact phase_took ..
  | createOffer => exact phase_described ..
  | createAnswer => exact phase_described ..
  | applyDescription kind description => exact phase_took ..
  | applyCandidate c => rfl
  | ready => exact phase_flush s.held (s.note .ready)
  | closed reason => exact absurd rfl (goes reason)

theorem phase_carryOut (s : Session ω) (e : Handshake.Effect) :
    (s.carryOut env e).phase = s.phase ∨ (s.carryOut env e).phase = .ended := by
  by_cases last : ∃ reason, e = .closed reason
  · obtain ⟨reason, rfl⟩ := last
    exact .inr rfl
  · exact .inl (phase_carryOut_of_ne s fun reason is => last ⟨reason, is⟩)

theorem phase_carryOutAll (effects : List Handshake.Effect) (s : Session ω) :
    (carryOutAll env effects s).phase = s.phase ∨ (carryOutAll env effects s).phase = .ended := by
  induction effects generalizing s with
  | nil => exact .inl rfl
  | cons e rest ih =>
    by_cases alive : s.phase = .ended
    · rw [carryOutAll, alive]
      exact .inl alive
    · rw [carryOutAll_cons alive]
      rcases ih (s.carryOut env e) with same | ended
      · rw [same]
        exact phase_carryOut s e
      · exact .inr ended

variable (env) in
/-- An input leaves a session in its phase, or ends it. -/
theorem phase_process (s : Session ω) (i : Handshake.Input) :
    (s.process env i).phase = s.phase ∨ (s.process env i).phase = .ended := by
  unfold process
  obtain ⟨m, _ | effects⟩ := s.machine.handle i
  · exact .inl rfl
  · exact phase_carryOutAll effects _

end Session

namespace Handshake

/-- Whether an effect neither makes the session ready nor ends it. -/
def Effect.Calm : Effect → Prop
  | .ready => False
  | .closed _ => False
  | _ => True

theorem calm_applyCandidates (waiting : List Candidate) :
    ∀ e ∈ waiting.map Effect.applyCandidate, e.Calm := by
  intro e there
  obtain ⟨c, -, rfl⟩ := List.mem_map.1 there
  trivial

/-- **The course that a move takes**: it is calm, or makes the session ready, or ends it. -/
inductive Course (h h' : Handshake) : List Effect → Prop
  | calm {effects : List Effect} (all : ∀ e ∈ effects, e.Calm)
      (readiness : h'.stage = .ready ↔ h.stage = .ready) : Course h h' effects
  | ready (before : h.stage = .answerExchanged) (after : h'.stage = .ready) : Course h h' [.ready]
  | ended (parting : List Effect) (calm : ∀ e ∈ parting, e.Calm) (reason : CloseReason) :
    Course h h' (parting ++ [.closed reason])

theorem Move.course {h h' : Handshake} {effects : List Effect} (move : Move h h' effects) :
    Course h h' effects := by
  cases move with
  | nothing => exact .calm nofun Iff.rfl
  | started idle => exact .calm nofun (by simp [idle])
  | dialed connecting _ => exact .calm (by simp [Effect.Calm]) Iff.rfl
  | accepted connecting _ => exact .calm nofun (by simp [connecting])
  | offered description connecting _ => exact .calm (by simp [Effect.Calm]) (by simp [connecting])
  | answered description awaiting _ _ _ =>
    exact .calm (List.forall_mem_cons.2 ⟨trivial, calm_applyCandidates _⟩) (by simp [awaiting])
  | tookOffer description _ _ _ => exact .calm (by simp [Effect.Calm]) Iff.rfl
  | tookAnswer description sent _ =>
    exact .calm (List.forall_mem_cons.2 ⟨trivial, calm_applyCandidates _⟩) (by simp [sent])
  | tookCandidate c _ => exact .calm (by simp [Effect.Calm]) Iff.rfl
  | keptCandidate c => exact .calm nofun Iff.rfl
  | named c _ _ => exact .calm (by simp [Effect.Calm]) Iff.rfl
  | opened exchanged => exact .ready exchanged rfl
  | ended reason _ parting _ farewell =>
    refine .ended parting ?_ reason
    rcases farewell with rfl | rfl
    · exact nofun
    · simp [Effect.Calm]
  | hungUp _ => exact .calm nofun Iff.rfl

end Handshake

end TopicMesh
