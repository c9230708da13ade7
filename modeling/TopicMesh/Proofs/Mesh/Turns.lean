import TopicMesh.Proofs.Mesh.Convergence
import TopicMesh.Proofs.Node.Calling
import TopicMesh.Proofs.Node.Job

/-!
# A mesh turn by turn

In a mesh nodes do their jobs and take the frames that wait for them, in any order
(`Turn`).  A mesh is **orderly** (`Orderly`) if its hub is sound and each of its nodes is
moored, whatever they are like otherwise.  Every turn keeps it so: a job is a course of
its node, which the others meet only at the hub (`Orderly.working`), and a frame changes
only the node that takes it (`node_of_hand`).

What a mesh **bears** are the deliveries that wait, are kept, or have been handed to
callbacks (`Bears`).  Only what is published adds to them.
-/

namespace TopicMesh.Mesh

open Node Act

variable {m : Mesh} {id : String} {n : Node} {job : Job}

/-- **What happens in a mesh.** -/
inductive Turn
  /-- A node does a job. -/
  | work (id : String) (job : Job)
  /-- The oldest frame of an inbox is handed to its node. -/
  | hand (inbox : Nat)
  /-- What fails by itself changes. -/
  | weather (outage : String → Outage)

/-- The mesh after a turn. -/
def Turn.result (m : Mesh) : Turn → Mesh
  | work id job => (m.perform id job.act).1
  | hand inbox => (m.handFrom? inbox).getD m
  | weather outage => { m with outage := outage }

/-- Whether no line call fails by itself after a turn. -/
def Turn.Steady : Turn → Prop
  | weather outage => ∀ id call, (outage id).line call = none
  | _ => True

/-- The mesh after some turns. -/
def play (m : Mesh) (turns : List Turn) : Mesh :=
  turns.foldl Turn.result m

/-- Whether the hub is sound, every node is moored, and no line call fails by itself. -/
structure Orderly (m : Mesh) : Prop where
  sound : m.hub.Sound
  named : ∀ id n, m.nodes.get? id = some n → n.id = id
  moored : ∀ id n, m.nodes.get? id = some n → (m.station id n).Moored
  steady : ∀ id call, (m.outage id).line call = none

theorem node_of_new {configs : List NodeConfig} {now : Int64} {firstPort : UInt16}
    (found : (new configs now firstPort).nodes.get? id = some n) :
    ∃ c ∈ configs, c.discovery.nodeId = id ∧ n = .new c := by
  obtain ⟨c, listed, e⟩ := List.mem_map.1 (KeyMap.mem_of_get?_ofList found)
  cases e
  exact ⟨c, listed, rfl, rfl⟩

theorem orderly_new (configs : List NodeConfig) (now : Int64) (firstPort : UInt16) :
    (new configs now firstPort).Orderly where
  sound := Hub.sound_empty now
  named id n found := by
    obtain ⟨c, -, rfl, rfl⟩ := node_of_new found
    rfl
  moored id n found := by
    obtain ⟨c, -, rfl, rfl⟩ := node_of_new found
    exact ⟨rfl, rfl, nofun, nofun⟩
  steady _ _ := rfl

/-- A connected node has an inbox at the hub, which it owns. -/
theorem Orderly.inbox_of_connected (orderly : m.Orderly) (found : m.nodes.get? id = some n)
    (up : n.line.isConnected m.hub = true) :
    ∃ inbox, n.line.inbox = some inbox ∧ m.hub.inboxOf id = some inbox := by
  have moored := orderly.moored id n found
  have up : (m.station id n).isConnected = true := up
  rw [moored.isConnected] at up
  obtain ⟨inbox, attached⟩ := Option.isSome_iff_exists.1 up
  refine ⟨inbox, attached, ?_⟩
  rw [← orderly.named id n found]
  exact moored.inbox.trans attached

/-! ## Jobs -/

/-- The node's station after its job. -/
def doing (m : Mesh) (id : String) (n : Node) (job : Job) : Station :=
  after job.act (m.station id n)

theorem work_of_none (absent : m.nodes.get? id = none) (job : Job) :
    (Turn.work id job).result m = m :=
  perform_of_none absent job.act

theorem work_of_get? (found : m.nodes.get? id = some n) (job : Job) :
    (Turn.work id job).result m =
      { m with
        hub := (m.doing id n job).hub
        network := (m.doing id n job).network
        nodes := m.nodes.insert id (m.doing id n job).node } :=
  perform_of_get? found job.act

theorem hub_work (found : m.nodes.get? id = some n) (job : Job) :
    ((Turn.work id job).result m).hub = (m.doing id n job).hub := by
  rw [work_of_get? found]

/-- **A node at work**: it goes from its bookkeeping by a course of moves, and does at the
hub what one client may do. -/
theorem Orderly.working (orderly : m.Orderly) (found : m.nodes.get? id = some n) (job : Job) :
    let ready : Station := m.station id (job.prepare n)
    ready.Moored ∧
      Station.Course (job.license n) ready (m.doing id n job) ∧
      m.hub.Stirred id (Station.Speech (job.license n) n) (job.license n).roams
        (m.doing id n job).hub ∧
      (m.doing id n job).Moored ∧ (m.doing id n job).node.config = n.config := by
  intro ready
  obtain ⟨config, line, -⟩ := job.prepare_keeps n
  have moored : ready.Moored := (orderly.moored id n found).congr config line rfl
  have course : Station.Course (job.license n) ready (m.doing id n job) :=
    course_job (s := m.station id n) (orderly.steady id) job
  obtain ⟨stirred, moored', config'⟩ := course.stirred moored orderly.sound
  have named : ready.node.id = id :=
    (congrArg (fun c : NodeConfig => c.discovery.nodeId) config).trans (orderly.named id n found)
  have same : Station.Speech (job.license n) ready.node = Station.Speech (job.license n) n := by
    funext m
    unfold Station.Speech Announces
    rw [show ready.node.config = n.config from config]
  rw [named, same] at stirred
  exact ⟨moored, course, stirred, moored', config'.trans config⟩

/-- Where the node finds itself after its job. -/
theorem Orderly.station_work (orderly : m.Orderly) (found : m.nodes.get? id = some n) (job : Job) :
    ((Turn.work id job).result m).station id (m.doing id n job).node = m.doing id n job := by
  obtain ⟨-, course, -⟩ := orderly.working found job
  have outage : (m.doing id n job).outage = m.outage id :=
    course.keeps (P := fun s => s.outage = m.outage id)
      (fun _ _ move same => move.outage.trans same) rfl
  rw [work_of_get? found]
  unfold station
  rw [← outage]

/-- The nodes after a job. -/
theorem get?_work (found : m.nodes.get? id = some n) (job : Job) (other : String) :
    ((Turn.work id job).result m).nodes.get? other =
      if id = other then some (m.doing id n job).node else m.nodes.get? other := by
  rw [work_of_get? found]
  exact KeyMap.get?_insert ..

theorem orderly_work (orderly : m.Orderly) (id : String) (job : Job) :
    ((Turn.work id job).result m).Orderly := by
  cases found : m.nodes.get? id with
  | none =>
    rw [work_of_none found]
    exact orderly
  | some n =>
    obtain ⟨-, -, stirred, moored, config⟩ := orderly.working found job
    have named : (m.doing id n job).node.id = id :=
      (congrArg (fun c : NodeConfig => c.discovery.nodeId) config).trans (orderly.named id n found)
    refine ⟨hub_work found job ▸ stirred.sound orderly.sound, fun other n' found' => ?_,
      fun other n' found' => ?_, ?_⟩
    · rw [get?_work found] at found'
      split at found'
      · next same =>
        cases found'
        exact named.trans same
      · exact orderly.named other n' found'
    · rw [get?_work found] at found'
      split at found'
      · cases found'
        refine moored.congr rfl rfl ?_
        show ((Turn.work id job).result m).hub.broker.clients.get? _ = _
        rw [hub_work found]
      · next apart =>
        have elsewhere : (job.license n).roams → id ≠ n'.id := fun _ same =>
          apart (same.trans (orderly.named other n' found'))
        refine (orderly.moored other n' found').congr rfl rfl ?_
        show ((Turn.work id job).result m).hub.broker.clients.get? n'.id = _
        rw [hub_work found]
        exact stirred.registration elsewhere
    · rw [work_of_get? found]
      exact orderly.steady

/-! ## Frames -/

theorem hand_of_none {inbox : Nat} (popped : m.hub.pop? inbox = none) :
    (Turn.hand inbox).result m = m := by
  show ((m.hub.pop? inbox).map m.hand).getD m = m
  rw [popped]
  rfl

theorem hand_of_pop? {inbox : Nat} {taken : Hub × String × ServerFrame}
    (popped : m.hub.pop? inbox = some taken) : (Turn.hand inbox).result m = m.hand taken := by
  show ((m.hub.pop? inbox).map m.hand).getD m = _
  rw [popped]
  rfl

theorem hand_cases (m : Mesh) (inbox : Nat) :
    (Turn.hand inbox).result m = m ∨ ∃ hub client frame,
      m.hub.pop? inbox = some (hub, client, frame) ∧
        (Turn.hand inbox).result m = m.hand (hub, client, frame) := by
  cases popped : m.hub.pop? inbox with
  | none => exact .inl (hand_of_none popped)
  | some taken => exact .inr ⟨taken.1, taken.2.1, taken.2.2, rfl, hand_of_pop? popped⟩

/-- The nodes after a frame was handed over. -/
theorem get?_hand (m : Mesh) (hub : Hub) (client : String) (frame : ServerFrame) (other : String) :
    (m.hand (hub, client, frame)).nodes.get? other =
      if client = other then (m.nodes.get? other).map fun n => n.onFrame frame
      else m.nodes.get? other :=
  KeyMap.get?_modify ..

/-- A node of the mesh after a frame was handed over: it has taken the frame or is as
before. -/
theorem node_of_hand {hub : Hub} {client : String} {frame : ServerFrame} {n' : Node}
    (found : (m.hand (hub, client, frame)).nodes.get? id = some n') :
    ∃ n, m.nodes.get? id = some n ∧ n' = if client = id then n.onFrame frame else n := by
  rw [get?_hand] at found
  split at found
  · next same =>
    obtain ⟨n, there, rfl⟩ := Option.map_eq_some_iff.1 found
    exact ⟨n, there, (if_pos same).symm⟩
  · next other => exact ⟨n', found, (if_neg other).symm⟩

theorem orderly_hand (orderly : m.Orderly) {inbox : Nat} {hub : Hub} {client : String}
    {frame : ServerFrame} (popped : m.hub.pop? inbox = some (hub, client, frame)) :
    (m.hand (hub, client, frame)).Orderly := by
  have same_line : ∀ id n', (m.hand (hub, client, frame)).nodes.get? id = some n' →
      ∃ n, m.nodes.get? id = some n ∧ n'.config = n.config ∧ n'.line = n.line := by
    intro id n' found
    obtain ⟨n, there, rfl⟩ := node_of_hand found
    refine ⟨n, there, ?_⟩
    split
    · obtain ⟨config, line, -⟩ := n.onFrame_keeps frame
      exact ⟨config, line⟩
    · exact ⟨rfl, rfl⟩
  refine ⟨Hub.sound_of_pop? orderly.sound popped, fun id n' found => ?_, fun id n' found => ?_,
    orderly.steady⟩
  · obtain ⟨n, there, config, -⟩ := same_line id n' found
    rw [Node.id, config]
    exact orderly.named id n there
  · obtain ⟨n, there, config, line⟩ := same_line id n' found
    refine (orderly.moored id n there).congr config line ?_
    show hub.broker.clients.get? _ = _
    rw [Hub.broker_of_pop? popped]
    rfl

theorem orderly_turn (orderly : m.Orderly) {turn : Turn} (steady : turn.Steady) :
    (turn.result m).Orderly := by
  cases turn with
  | work id job => exact orderly_work orderly id job
  | hand inbox =>
    rcases hand_cases m inbox with same | ⟨hub, client, frame, popped, result⟩
    · rw [same]
      exact orderly
    · rw [result]
      exact orderly_hand orderly popped
  | weather outage =>
    exact ⟨orderly.sound, orderly.named,
      fun id n found => (orderly.moored id n found).congr rfl rfl rfl, steady⟩

theorem orderly_play {turns : List Turn} (orderly : m.Orderly) (steady : ∀ turn ∈ turns, turn.Steady) :
    (play m turns).Orderly := by
  induction turns generalizing m with
  | nil => exact orderly
  | cons turn rest ih =>
    exact ih (orderly_turn orderly (steady turn List.mem_cons_self)) fun later there =>
      steady later (List.mem_cons_of_mem turn there)

/-- No turn changes how a node is configured, and none brings new nodes. -/
theorem Orderly.config_turn (orderly : m.Orderly) {turn : Turn} {n' : Node}
    (found : (turn.result m).nodes.get? id = some n') :
    ∃ n, m.nodes.get? id = some n ∧ n'.config = n.config := by
  cases turn with
  | work worker job =>
    cases working : m.nodes.get? worker with
    | none =>
      rw [work_of_none working] at found
      exact ⟨n', found, rfl⟩
    | some n =>
      obtain ⟨-, -, -, -, config⟩ := orderly.working working job
      rw [get?_work working] at found
      split at found
      · next same =>
        cases found
        exact ⟨n, same ▸ working, config⟩
      · exact ⟨n', found, rfl⟩
  | hand inbox =>
    rcases hand_cases m inbox with same | ⟨hub, client, frame, popped, result⟩
    · rw [same] at found
      exact ⟨n', found, rfl⟩
    · rw [result] at found
      obtain ⟨n, there, rfl⟩ := node_of_hand found
      refine ⟨n, there, ?_⟩
      split
      · exact (n.onFrame_keeps frame).1
      · rfl
  | weather outage => exact ⟨n', found, rfl⟩

/-! ## Taking a queue -/

/-- Takes the frames that wait in an inbox to its node. -/
def handAll (m : Mesh) (inbox : Nat) : Mesh :=
  play m (List.replicate (m.hub.framesIn inbox).length (.hand inbox))

theorem framesIn_of_pop?_eq_none {h : Hub} {inbox : Nat} (popped : h.pop? inbox = none) :
    h.framesIn inbox = [] := by
  unfold Hub.framesIn
  unfold Hub.pop? at popped
  cases found : h.mailboxes.get? inbox with
  | none => rfl
  | some box =>
    obtain ⟨client, frames⟩ := box
    cases frames with
    | nil => rfl
    | cons frame rest =>
      rw [found] at popped
      cases popped

/-- The owner of an inbox takes its frames in order. -/
theorem get?_play_hands {inbox : Nat} (count : Nat) {m : Mesh} {n : Node}
    (owner : m.hub.ownerOf? inbox = some id) (found : m.nodes.get? id = some n) :
    (play m (List.replicate count (.hand inbox))).nodes.get? id =
      some (((m.hub.framesIn inbox).take count).foldl onFrame n) := by
  induction count generalizing m n with
  | zero => exact found
  | succ count ih =>
    show (play ((Turn.hand inbox).result m) (List.replicate count (.hand inbox))).nodes.get? id = _
    cases popped : m.hub.pop? inbox with
    | none =>
      rw [hand_of_none popped, ih owner found, framesIn_of_pop?_eq_none popped, List.take_nil, List.take_nil]
    | some taken =>
      obtain ⟨hub, client, frame⟩ := taken
      obtain ⟨owners, owner'⟩ := Hub.ownerOf?_of_pop? popped inbox
      have same : client = id := Option.some.inj (owner'.symm.trans owner)
      have there : (m.hand (hub, client, frame)).nodes.get? id = some (n.onFrame frame) := by
        rw [get?_hand, if_pos same, found]
        rfl
      rw [hand_of_pop? popped, ih (m := m.hand (hub, client, frame)) (owners.trans owner) there,
        Hub.framesIn_of_pop? popped inbox, if_pos rfl]
      rfl

theorem get?_handAll {inbox : Nat} (owner : m.hub.ownerOf? inbox = some id)
    (found : m.nodes.get? id = some n) :
    (m.handAll inbox).nodes.get? id = some ((m.hub.framesIn inbox).foldl onFrame n) := by
  unfold handAll
  rw [get?_play_hands _ owner found, List.take_length]

theorem line_foldl_onFrame (frames : List ServerFrame) (n : Node) :
    (frames.foldl onFrame n).line = n.line := by
  induction frames generalizing n with
  | nil => rfl
  | cons frame rest ih => exact (ih (n.onFrame frame)).trans (n.onFrame_keeps frame).2.1

/-- Then none of them waits. -/
theorem framesIn_play_hands (inbox count : Nat) (m : Mesh) :
    (play m (List.replicate count (.hand inbox))).hub.framesIn inbox =
      (m.hub.framesIn inbox).drop count := by
  induction count generalizing m with
  | zero => rfl
  | succ count ih =>
    show (play ((Turn.hand inbox).result m) (List.replicate count (.hand inbox))).hub.framesIn inbox = _
    rw [ih]
    cases popped : m.hub.pop? inbox with
    | none =>
      rw [hand_of_none popped, framesIn_of_pop?_eq_none popped, List.drop_nil, List.drop_nil]
    | some taken =>
      obtain ⟨hub, client, frame⟩ := taken
      rw [hand_of_pop? popped, Hub.framesIn_of_pop? popped inbox, if_pos rfl]
      rfl

theorem framesIn_handAll (m : Mesh) (inbox : Nat) : (m.handAll inbox).hub.framesIn inbox = [] := by
  unfold handAll
  rw [framesIn_play_hands, List.drop_length]

/-! ## What is on its way or noted -/

/-- Whether all deliveries are of some kind: those that wait, those that are kept for
later, and those that callbacks have been handed. -/
structure Bears (m : Mesh) (P : Delivery → Prop) : Prop where
  carries : m.hub.Carries P
  heard : ∀ id n, m.nodes.get? id = some n → ∀ e ∈ n.invoked, P e.2

section Bearing

variable {P Q : Delivery → Prop}

theorem Bears.mono (bears : m.Bears P) (weaker : ∀ d, P d → Q d) : m.Bears Q :=
  ⟨⟨fun inbox message there => weaker _ (bears.carries.frames inbox message there),
    fun topic message there => weaker _ (bears.carries.kept topic message there)⟩,
    fun id n found e there => weaker _ (bears.heard id n found e there)⟩

theorem Bears.weather (bears : m.Bears P) (outage : String → Outage) :
    ({ m with outage := outage } : Mesh).Bears P :=
  ⟨bears.carries, bears.heard⟩

theorem bears_new (configs : List NodeConfig) (now : Int64) (firstPort : UInt16) :
    (new configs now firstPort).Bears P := by
  refine ⟨Hub.carries_empty now, fun id n found e there => ?_⟩
  obtain ⟨c, -, -, rfl⟩ := node_of_new found
  cases there

/-- A job adds what it publishes. -/
theorem bears_work (orderly : m.Orderly) (bears : m.Bears P) (found : m.nodes.get? id = some n)
    (spoken : ∀ message, Station.Speech (job.license n) n message → P (.ofMessage message)) :
    ((Turn.work id job).result m).Bears P := by
  obtain ⟨-, course, stirred, -⟩ := orderly.working found job
  refine ⟨hub_work found job ▸ stirred.carries orderly.sound spoken bears.carries,
    fun other n' found' e there => ?_⟩
  rw [get?_work found] at found'
  split at found'
  · cases found'
    obtain ⟨-, -, -, -, noted⟩ := job.prepare_keeps n
    rw [course.notes.2.2.1] at there
    exact bears.heard id n found e (noted ▸ there)
  · exact bears.heard other n' found' e there

/-- A frame that is handed over was on its way. -/
theorem bears_hand (bears : m.Bears P) {inbox : Nat} {hub : Hub} {client : String}
    {frame : ServerFrame} (popped : m.hub.pop? inbox = some (hub, client, frame)) :
    (m.hand (hub, client, frame)).Bears P := by
  refine ⟨Hub.carries_of_pop? bears.carries popped, fun id n' found e there => ?_⟩
  obtain ⟨n, was, rfl⟩ := node_of_hand found
  split at there
  · cases taken : n.taken? frame with
    | none =>
      rw [(onFrame_of_not_taken taken).2.2] at there
      exact bears.heard id n was e there
    | some d =>
      rw [onFrame_of_taken taken] at there
      rcases mem_invoked_deliver there with there | same
      · exact bears.heard id n was e there
      · obtain ⟨message, is, brings⟩ := message_of_taken taken
        rw [same, ← brings]
        refine bears.carries.frames inbox message ?_
        rw [Hub.framesIn_of_pop? popped inbox, if_pos rfl, ← is]
        exact List.mem_cons_self
  · exact bears.heard id n was e there

end Bearing

end TopicMesh.Mesh
