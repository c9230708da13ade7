import TopicMesh.Mesh
import TopicMesh.Proofs.Mesh.Calls

/-!
# Convergence of a mesh

Any number of nodes on one hub join, leave, crash and change what they serve, in any
order, and take the frames that wait for them at any time in between.  A node that
rejoins has taken, or lost, what waited in the inboxes of its earlier lines
(`Move.Allowed`).

**Whenever nothing waits for a connected node, it routes to each other node as that one
announces itself** (`converges`): to a connected one by exactly the ports that it
serves its topics at, and not at all to one that has left and has not announced
anything since (`HasLeft`).
-/

namespace TopicMesh.Mesh

open Node Act

variable {base : String} {configs : List DiscoveryConfig} {m m' : Mesh}

/-! ## Runs -/

/-- A node with what it acts on. -/
def station (m : Mesh) (id : String) (n : Node) : Station :=
  ⟨n, m.hub, m.network, m.outage id⟩

/-- What happens in a mesh. -/
inductive Move
  | call (name : String) (c : Call)
  /-- The oldest frame of an inbox is handed to its node. -/
  | hand (inbox : Nat)
  /-- The frames in an inbox are lost. -/
  | drop (inbox : Nat)
  /-- What fails by itself changes. -/
  | weather (outage : String → Outage)

/-- The mesh after a move. -/
def Move.result (m : Mesh) : Move → Mesh
  | call name c => (m.perform name c.act).1
  | hand inbox => (m.handFrom? inbox).getD m
  | drop inbox => { m with hub := m.hub.closeInbox inbox }
  | weather outage => { m with outage := outage }

/-- Whether a move can happen: a node joins when nothing waits in the inboxes of its
ended lines, only these are lost, and no line call fails by itself. -/
def Move.Allowed (m : Mesh) : Move → Prop
  | call name c => c = .connect → ∀ inbox, m.hub.ownerOf? inbox = some name →
      m.hub.inboxOf name ≠ some inbox → m.hub.framesIn inbox = []
  | hand _ => True
  | drop inbox => ∀ client, m.hub.inboxOf client ≠ some inbox
  | weather outage => ∀ name call, (outage name).line call = none

/-- Something that has happened. -/
structure Event where
  before : Mesh
  move : Move
  after : Mesh

/-- The meshes that are reached from a start, each with its history, newest first. -/
inductive Reached (start : Mesh) : List Event → Mesh → Prop
  | start : Reached start [] start
  | step {past : List Event} {m : Mesh} {move : Move} : Reached start past m → move.Allowed m →
    Reached start (⟨m, move, move.result m⟩ :: past) (move.result m)

/-- Whether a node's line is connected. -/
def IsUp (m : Mesh) (id : String) : Prop :=
  ∃ n, m.nodes.get? id = some n ∧ n.line.isConnected m.hub = true

/-- Whether a crash of a node is announced. -/
def HasWill (m : Mesh) (id : String) : Prop :=
  ∃ n, m.nodes.get? id = some n ∧ n.config.discovery.lastWill = true

/-- Whether a node has something to announce. -/
def Advertises (m : Mesh) (id : String) : Prop :=
  ∃ n, m.nodes.get? id = some n ∧ n.discovery.advertised.isEmpty = false

/-- Whether a connected node leaves: it says so, or it crashes and leaves a will. -/
def Event.Leaves (id : String) (e : Event) : Prop :=
  e.before.IsUp id ∧
    (e.move = .call id .disconnect ∨ e.move = .call id .abort ∧ e.before.HasWill id)

/-- Whether a node has left and has not announced anything since; it announces
something as soon as it is connected and has something to announce. -/
def HasLeft (id : String) : List Event → Prop
  | [] => False
  | e :: past => e.Leaves id ∨ HasLeft id past ∧ ¬(e.after.IsUp id ∧ e.after.Advertises id)

/-! ## The invariant -/

/-- What holds of a node of a mesh. -/
structure Member (configs : List DiscoveryConfig) (m : Mesh) (id : String) (n : Node) : Prop where
  named : n.id = id
  listed : n.config.discovery ∈ configs
  consistent : ∃ orphan outlived, (m.station id n).Consistent orphan outlived
  plain : ∀ topic r, n.subscriptions.get? topic = some r → topic ≠ n.config.discovery.filter
  attends : n.Attends configs m.hub

/-- What holds of a mesh. -/
structure Coherent (configs : List DiscoveryConfig) (m : Mesh) : Prop where
  sound : m.hub.Sound
  truthful : m.hub.Truthful (Says configs)
  member : ∀ id n, m.nodes.get? id = some n → Member configs m id n

theorem Member.attached {id : String} {n : Node} (member : Member configs m id n) :
    (m.station id n).Attached := by
  obtain ⟨_, _, consistent⟩ := member.consistent
  exact consistent.attached

theorem Member.reads {id : String} {n : Node} (member : Member configs m id n) :
    m.hub.inboxOf n.id = n.line.inbox :=
  member.attached.inbox

theorem Member.steady {id : String} {n : Node} (member : Member configs m id n) :
    ∀ call, (m.outage id).line call = none := by
  obtain ⟨_, _, consistent⟩ := member.consistent
  exact consistent.steady

/-- A member stays one through what does not concern it, if it goes on to attend. -/
theorem Member.of_calm {id : String} {n n' : Node} (member : Member configs m id n)
    (calm : Station.Calm (m.station id n) (m'.station id n'))
    (subscriptions : n'.subscriptions = n.subscriptions) (attends : n'.Attends configs m'.hub) :
    Member configs m' id n' := by
  obtain ⟨orphan, outlived, consistent⟩ := member.consistent
  have config : n'.config = n.config := calm.config
  refine ⟨?_, ?_, ⟨orphan, outlived, Station.consistent_calm consistent calm⟩, ?_, attends⟩
  · rw [Node.id, config]
    exact member.named
  · rw [config]
    exact member.listed
  · rw [config, subscriptions]
    exact member.plain

/-! ## The start -/

/-- A mesh whose nodes have done nothing yet is coherent. -/
theorem coherent_new {nodes : List NodeConfig}
    (roster : Roster base (nodes.map NodeConfig.discovery)) (now : Int64) (firstPort : UInt16) :
    Coherent (nodes.map NodeConfig.discovery) (new nodes now firstPort) := by
  refine ⟨Hub.sound_empty now, Hub.truthful_empty now, ?_⟩
  intro id n found
  obtain ⟨c, hc, e⟩ := List.mem_map.1 (KeyMap.mem_of_get?_ofList found)
  cases e
  have listed : c.discovery ∈ nodes.map NodeConfig.discovery := List.mem_map_of_mem hc
  refine ⟨rfl, listed, ⟨fun _ => False, False, ?_⟩, fun topic r hr => (by cases hr), ?_⟩
  · exact Station.consistent_start ⟨fun _ => rfl, rfl, rfl, rfl⟩ (roster.host _ listed)
      (roster.short _ listed)
  · exact attends_of_lost rfl RouteTable.labelled_empty
      fun topic host _ _ other port there => absurd rfl there

/-! ## One move -/

theorem perform_of_get? {id : String} {n : Node} (found : m.nodes.get? id = some n)
    (act : Act Unit) :
    (m.perform id act).1 =
      { m with
        hub := (after act (m.station id n)).hub
        network := (after act (m.station id n)).network
        nodes := m.nodes.insert id (after act (m.station id n)).node } := by
  unfold perform after station
  rw [found]
  dsimp only
  cases act ⟨n, m.hub, m.network, m.outage id⟩ <;> rfl

theorem perform_of_none {id : String} (absent : m.nodes.get? id = none) (act : Act Unit) :
    (m.perform id act).1 = m := by
  unfold perform
  rw [absent]

theorem Member.behaves (roster : Roster base configs) {id : String} {n : Node}
    (coherent : Coherent configs m) (found : m.nodes.get? id = some n) (c : Call)
    (allowed : (Move.call id c).Allowed m) :
    (m.station id n).Behaves configs (after c.act (m.station id n)) := by
  have member := coherent.member id n found
  obtain ⟨_, _, consistent⟩ := member.consistent
  refine behaves_call roster member.listed coherent.sound consistent member.plain member.attends c ?_
  intro joins
  have named : (m.station id n).node.id = id := member.named
  rw [named]
  exact allowed joins

/-- Two members have different names at the broker. -/
theorem Member.apart {id id' : String} {n n' : Node} (member : Member configs m id n)
    (member' : Member configs m id' n') (other : id ≠ id') :
    n.config.discovery.nodeId ≠ n'.id := by
  rw [member'.named]
  exact fun same => other (member.named.symm.trans same)

/-- The announcement topic of one member is not the other's own. -/
theorem Member.foreign (roster : Roster base configs) {id id' : String} {n n' : Node}
    (member : Member configs m id n) (member' : Member configs m id' n') (other : id ≠ id') :
    n.config.discovery.nodeTopic ≠ n'.config.discovery.nodeTopic := by
  intro same
  have := (roster.nodeTopic_inj member.listed member'.listed).1 same
  exact member.apart member' other (congrArg DiscoveryConfig.nodeId this)

theorem calm_call (roster : Roster base configs) {id id' : String} {n n' : Node} {c : Call}
    (coherent : Coherent configs m) (allowed : (Move.call id c).Allowed m)
    (found : m.nodes.get? id = some n) (found' : m.nodes.get? id' = some n') (other : id ≠ id') :
    Station.Calm (m.station id' n') ((m.perform id c.act).1.station id' n') := by
  have member := coherent.member id n found
  have member' := coherent.member id' n' found'
  have touched := (Member.behaves roster coherent found c allowed).touched
  have apart := member.apart member' other
  have topics := (member.foreign roster member' other).symm
  rw [perform_of_get? found]
  exact ⟨member'.steady, rfl, rfl, fun _ => rfl, rfl, touched.client apart, touched.kept topics⟩

theorem coherent_call (roster : Roster base configs) {id : String} {c : Call}
    (coherent : Coherent configs m) (allowed : (Move.call id c).Allowed m) :
    Coherent configs ((Move.call id c).result m) := by
  show Coherent configs (m.perform id c.act).1
  cases found : m.nodes.get? id with
  | none =>
    rw [perform_of_none found]
    exact coherent
  | some n =>
    have member := coherent.member id n found
    have behaves := Member.behaves roster coherent found c allowed
    obtain ⟨orphan, outlived, consistent⟩ := behaves.consistent
    have calm : ∀ id' n', m.nodes.get? id' = some n' → id ≠ id' →
        Station.Calm (m.station id' n') ((m.perform id c.act).1.station id' n') :=
      fun id' n' found' other => calm_call roster coherent allowed found found' other
    rw [perform_of_get? found] at calm ⊢
    refine ⟨behaves.touched.sound coherent.sound,
      behaves.touched.truthful coherent.sound member.listed coherent.truthful, ?_⟩
    intro id' n' found'
    rw [KeyMap.get?_insert] at found'
    split at found'
    · next same =>
      subst same
      cases found'
      have config := behaves.config
      refine ⟨?_, ?_, ⟨orphan, outlived, ?_⟩, ?_, behaves.attends⟩
      · rw [Node.id, config]
        exact member.named
      · rw [config]
        exact member.listed
      · exact Station.consistent_calm consistent
          ⟨member.steady, rfl, rfl, fun _ => rfl, rfl, rfl, rfl⟩
      · rw [config]
        exact behaves.plain
    · next other =>
      have member' := coherent.member id' n' found'
      refine member'.of_calm (calm id' n' found' other) rfl ?_
      exact behaves.touched.bystander roster member.listed member'.listed
        (member.apart member' other) coherent.sound member'.reads member'.attends

section Handing

variable {inbox : Nat} {hub : Hub} {client : String} {frame : ServerFrame}

/-- A node after a frame was handed to somebody. -/
theorem calm_hand {id : String} {n' : Node} (coherent : Coherent configs m)
    (popped : m.hub.pop? inbox = some (hub, client, frame))
    (found : (m.hand (hub, client, frame)).nodes.get? id = some n') :
    ∃ n, m.nodes.get? id = some n ∧ n' = (if client = id then n.onFrame frame else n) ∧
      Station.Calm (m.station id n) ((m.hand (hub, client, frame)).station id n') := by
  have found : (m.nodes.modify client fun n => n.onFrame frame).get? id = some n' := found
  have broker : hub.broker = m.hub.broker := Hub.broker_of_pop? popped
  have kept : ∀ topic, hub.kept topic = m.hub.kept topic := Hub.kept_of_pop? popped
  rw [KeyMap.get?_modify] at found
  split at found
  · next same =>
    obtain ⟨n, there, rfl⟩ := Option.map_eq_some_iff.1 found
    have steady := (coherent.member id n there).steady
    obtain ⟨config, line, subscriptions, advertised⟩ := n.onFrame_keeps frame
    refine ⟨n, there, (if_pos same).symm, steady, config, line, ?_, advertised, ?_, ?_⟩
    · intro topic
      show ((Subscriptions.get? (n.onFrame frame).subscriptions topic).filter _).map _ = _
      rw [subscriptions]
      rfl
    · show hub.broker.clients.get? _ = _
      rw [broker]
      rfl
    · show hub.kept (n.onFrame frame).config.discovery.nodeTopic = _
      rw [config]
      exact kept _
  · next other =>
    have steady := (coherent.member id n' found).steady
    refine ⟨n', found, (if_neg other).symm, steady, rfl, rfl, fun _ => rfl, rfl, ?_, kept _⟩
    show hub.broker.clients.get? _ = _
    rw [broker]
    rfl

theorem coherent_hand (roster : Roster base configs) (coherent : Coherent configs m)
    (popped : m.hub.pop? inbox = some (hub, client, frame)) :
    Coherent configs (m.hand (hub, client, frame)) := by
  refine ⟨Hub.sound_of_pop? coherent.sound popped,
    Hub.truthful_of_pop? coherent.truthful popped, ?_⟩
  intro id n' found
  obtain ⟨n, there, is_after, calm⟩ := calm_hand coherent popped found
  have member := coherent.member id n there
  by_cases same : client = id
  · rw [if_pos same] at is_after
    subst is_after
    have named : client = n.id := same.trans member.named.symm
    refine member.of_calm calm (n.onFrame_keeps frame).2.2.1 ?_
    exact attends_onFrame roster member.listed coherent.truthful (named ▸ popped) member.attends
  · rw [if_neg same] at is_after
    subst is_after
    have other : client ≠ n'.id := fun e => same (e.trans member.named)
    refine member.of_calm calm rfl ?_
    exact attends_of_pop? coherent.sound member.reads popped other member.attends

end Handing

theorem coherent_step (roster : Roster base configs) {move : Move} (coherent : Coherent configs m)
    (allowed : move.Allowed m) : Coherent configs (move.result m) := by
  cases move with
  | call name c => exact coherent_call roster coherent allowed
  | hand inbox =>
    show Coherent configs (((m.hub.pop? inbox).map m.hand).getD m)
    cases popped : m.hub.pop? inbox with
    | none => exact coherent
    | some taken => exact coherent_hand roster coherent popped
  | drop inbox =>
    refine ⟨Hub.sound_closeInbox coherent.sound allowed,
      Hub.truthful_closeInbox coherent.truthful inbox, fun id n found => ?_⟩
    have member := coherent.member id n found
    refine member.of_calm ⟨member.steady, rfl, rfl, fun _ => rfl, rfl, rfl, rfl⟩ rfl ?_
    exact attends_closeInbox (member.reads ▸ allowed n.id) member.attends
  | weather outage =>
    refine ⟨coherent.sound, coherent.truthful, fun id n found => ?_⟩
    have member := coherent.member id n found
    exact member.of_calm ⟨allowed id, rfl, rfl, fun _ => rfl, rfl, rfl, rfl⟩ rfl member.attends

theorem coherent_run (roster : Roster base configs) {start : Mesh} {past : List Event}
    (coherent : Coherent configs start) (reached : Reached start past m) : Coherent configs m := by
  induction reached with
  | start => exact coherent
  | step _ allowed ih => exact coherent_step roster ih allowed

/-! ## Who has left -/

section Leaving

variable {id : String} {n n' : Node} {c : Call}

/-- What a node's own call leaves behind. -/
theorem gone_own (found : m.nodes.get? id = some n) (gone : (after c.act (m.station id n)).Gone)
    (found' : ((Move.call id c).result m).nodes.get? id = some n') :
    (((Move.call id c).result m).station id n').Gone := by
  have result : (Move.call id c).result m = _ := perform_of_get? found c.act
  rw [result] at found' ⊢
  have there : (after c.act (m.station id n)).node = n' :=
    Option.some.inj (((KeyMap.get?_insert ..).trans (if_pos rfl)).symm.trans found')
  subst there
  exact ⟨gone.kept, gone.nothing⟩

/-- Who leaves is gone. -/
theorem gone_of_leaves {move : Move} (coherent : Coherent configs m)
    (leaves : Event.Leaves id ⟨m, move, move.result m⟩)
    (found' : (move.result m).nodes.get? id = some n') :
    ((move.result m).station id n').Gone := by
  obtain ⟨⟨n, found, up⟩, says_so | ⟨crashes, n₀, found₀, will⟩⟩ := leaves
  · have up : (m.station id n).isConnected = true := up
    obtain ⟨_, _, consistent⟩ := (coherent.member id n found).consistent
    obtain rfl : move = .call id .disconnect := says_so
    exact gone_own found (Station.gone_disconnect consistent (.inl up)) found'
  · have up : (m.station id n).isConnected = true := up
    obtain ⟨_, _, consistent⟩ := (coherent.member id n found).consistent
    obtain rfl : move = .call id .abort := crashes
    cases (found₀.symm.trans found : some n₀ = some n)
    exact gone_own found (Station.gone_abort consistent (.inl ⟨up, will⟩)) found'

/-- Who has left stays gone through a call of its own that announces nothing. -/
theorem gone_own_call (coherent : Coherent configs m)
    (gone : ∀ n, m.nodes.get? id = some n → (m.station id n).Gone)
    (silent : ¬(((Move.call id c).result m).IsUp id ∧ ((Move.call id c).result m).Advertises id))
    (found' : ((Move.call id c).result m).nodes.get? id = some n') :
    (((Move.call id c).result m).station id n').Gone := by
  cases found : m.nodes.get? id with
  | none =>
    have result : (Move.call id c).result m = m := perform_of_none found c.act
    rw [result, found] at found'
    cases found'
  | some n =>
    obtain ⟨_, _, consistent⟩ := (coherent.member id n found).consistent
    refine gone_own found (Station.gone_call consistent (gone n found) c ?_) found'
    rintro ⟨up, something⟩
    have result : (Move.call id c).result m = _ := perform_of_get? found c.act
    have there : ((Move.call id c).result m).nodes.get? id =
        some (after c.act (m.station id n)).node := by
      rw [result]
      exact (KeyMap.get?_insert ..).trans (if_pos rfl)
    refine silent ⟨⟨_, there, ?_⟩, _, there, something⟩
    show Line.isConnected _ ((Move.call id c).result m).hub = true
    rw [result]
    exact up

/-- Who has left stays gone through the calls of others. -/
theorem gone_other_call (roster : Roster base configs) {name : String} (other : name ≠ id)
    (coherent : Coherent configs m) (allowed : (Move.call name c).Allowed m)
    (gone : ∀ n, m.nodes.get? id = some n → (m.station id n).Gone)
    (found' : ((Move.call name c).result m).nodes.get? id = some n') :
    (((Move.call name c).result m).station id n').Gone := by
  cases found : m.nodes.get? name with
  | none =>
    have result : (Move.call name c).result m = m := perform_of_none found c.act
    rw [result] at found' ⊢
    exact gone n' found'
  | some n =>
    have there : m.nodes.get? id = some n' := by
      have result : (Move.call name c).result m = _ := perform_of_get? found c.act
      rw [result, KeyMap.get?_insert, if_neg other] at found'
      exact found'
    have calm := calm_call roster coherent allowed found there other
    exact Station.gone_calm (coherent.member id n' there).attached calm (gone n' there)

/-- Who has left stays gone while frames are handed out. -/
theorem gone_hand {inbox : Nat} (coherent : Coherent configs m)
    (gone : ∀ n, m.nodes.get? id = some n → (m.station id n).Gone)
    (found' : ((Move.hand inbox).result m).nodes.get? id = some n') :
    (((Move.hand inbox).result m).station id n').Gone := by
  have handed : (Move.hand inbox).result m = ((m.hub.pop? inbox).map m.hand).getD m := rfl
  rw [handed] at found' ⊢
  cases popped : m.hub.pop? inbox with
  | none =>
    rw [popped] at found'
    exact gone n' found'
  | some taken =>
    rw [popped] at found'
    obtain ⟨n, there, -, calm⟩ := calm_hand coherent popped found'
    exact Station.gone_calm (coherent.member id n there).attached calm (gone n there)

/-- **Who has left is gone**, move by move. -/
theorem gone_step (roster : Roster base configs) {past : List Event} {move : Move}
    (coherent : Coherent configs m) (allowed : move.Allowed m)
    (before : HasLeft id past → ∀ n, m.nodes.get? id = some n → (m.station id n).Gone)
    (left : HasLeft id (⟨m, move, move.result m⟩ :: past))
    (found' : (move.result m).nodes.get? id = some n') :
    ((move.result m).station id n').Gone := by
  rcases left with leaves | ⟨left, silent⟩
  · exact gone_of_leaves coherent leaves found'
  · have gone := before left
    cases move with
    | call name c =>
      by_cases same : name = id
      · subst same
        exact gone_own_call coherent gone silent found'
      · exact gone_other_call roster same coherent allowed gone found'
    | hand inbox => exact gone_hand coherent gone found'
    | drop inbox => exact ⟨(gone n' found').kept, (gone n' found').nothing⟩
    | weather outage => exact ⟨(gone n' found').kept, (gone n' found').nothing⟩

end Leaving

theorem gone_run (roster : Roster base configs) {start : Mesh} {past : List Event}
    (coherent : Coherent configs start) (reached : Reached start past m) {id : String}
    (left : HasLeft id past) {n : Node} (found : m.nodes.get? id = some n) :
    (m.station id n).Gone := by
  induction reached generalizing n with
  | start => exact left.elim
  | step before allowed ih =>
    exact gone_step roster (coherent_run roster coherent before) allowed
      (fun left n found => ih left found) left found

/-! ## Runs of given moves -/

/-- Whether moves can happen one after the other. -/
def AllAllowed : Mesh → List Move → Prop
  | _, [] => True
  | m, move :: rest => move.Allowed m ∧ AllAllowed (move.result m) rest

/-- A mesh with its history after some more moves. -/
def run : List Event × Mesh → List Move → List Event × Mesh
  | r, [] => r
  | (past, m), move :: rest => run (⟨m, move, move.result m⟩ :: past, move.result m) rest

theorem reached_run {start : Mesh} {moves : List Move} {past : List Event}
    (reached : Reached start past m) (allowed : AllAllowed m moves) :
    Reached start (run (past, m) moves).1 (run (past, m) moves).2 := by
  induction moves generalizing past m with
  | nil => exact reached
  | cons move rest ih => exact ih (reached.step allowed.1) allowed.2

/-- Whether a node may join can be seen from the inboxes that there are. -/
theorem allowed_of_mailboxes {name : String} {c : Call}
    (empty : ∀ e ∈ m.hub.mailboxes.entries, e.2.client = name → e.2.frames = []) :
    (Move.call name c).Allowed m := by
  intro _ inbox owner _
  obtain ⟨box, hb, client⟩ := Option.map_eq_some_iff.1 owner
  rw [Hub.framesIn_eq hb]
  exact empty (inbox, box) (KeyMap.mem_entries_iff.2 hb) client

/-! ## Convergence -/

/-- A connected node for which nothing waits has heard what is kept. -/
theorem heard_of_settled {id id' : String} {n n' : Node} (roster : Roster base configs)
    (coherent : Coherent configs m) (found : m.nodes.get? id = some n)
    (found' : m.nodes.get? id' = some n') (other : id ≠ id') (up : m.IsUp id')
    (settled : ∀ inbox, m.hub.inboxOf id' = some inbox → m.hub.framesIn inbox = [])
    (payload : Bytes) (kept : m.hub.kept n.config.discovery.nodeTopic = some payload) :
    n'.Heard n.config.discovery.host payload := by
  have member := coherent.member id n found
  have member' := coherent.member id' n' found'
  obtain ⟨n₀, found₀, connected⟩ := up
  obtain rfl : n₀ = n' := Option.some.inj (found₀.symm.trans found')
  have connected : (m.station id' n₀).isConnected = true := connected
  rw [Station.isConnected_eq_isSome member'.attached] at connected
  obtain ⟨inbox, attached⟩ := Option.isSome_iff_exists.1 connected
  have foreign := member.foreign roster member' other
  have latest := member'.attends.latest inbox attached _ _ ⟨_, member.listed, rfl, rfl⟩ foreign
  refine Hub.taken_of_latest latest kept (settled inbox ?_)
  rw [← member'.named, member'.reads]
  exact attached

/-- **A connected node for which nothing waits routes to each other node as that one
announces itself**: if that one is connected, by exactly one route to each of its
topics, at the port it serves it at; if it has left and not announced anything since,
not at all. -/
theorem converges {nodes : List NodeConfig}
    (roster : Roster base (nodes.map NodeConfig.discovery)) {now : Int64} {firstPort : UInt16}
    {past : List Event} (reached : Reached (new nodes now firstPort) past m) {id id' : String}
    {n n' : Node} (found : m.nodes.get? id = some n) (found' : m.nodes.get? id' = some n')
    (other : id ≠ id') (up' : m.IsUp id')
    (settled : ∀ inbox, m.hub.inboxOf id' = some inbox → m.hub.framesIn inbox = []) :
    (m.IsUp id → n.ownAnnouncement.Fits → ∀ topic c,
      n.discovery.advertised.get? topic = some c →
        ∃ session, (n'.table.lookup topic).filter (fun e => e.host = n.config.discovery.host) =
          [⟨n.config.discovery.host, c.port, c.protocol, session⟩]) ∧
      (HasLeft id past → ∀ topic, ∀ e ∈ n'.table.lookup topic,
        e.host ≠ n.config.discovery.host) := by
  have coherent := coherent_run roster (coherent_new roster now firstPort) reached
  have member := coherent.member id n found
  have member' := coherent.member id' n' found'
  obtain ⟨_, _, consistent⟩ := member.consistent
  have heard := heard_of_settled roster coherent found found' other up' settled
  constructor
  · rintro ⟨n₀, found₀, up⟩ fits topic c advertised
    obtain rfl : n₀ = n := Option.some.inj (found₀.symm.trans found)
    have kept := consistent.kept_of_advertised up advertised
    have follows := heard _ kept _ (Announcement.decode_encode fits
      (encode_own consistent.announceable))
    have foreign := member.foreign roster member' other
    have tracks := member'.attends.tracks _ _ ⟨_, member.listed, rfl, rfl⟩ foreign
    exact Discovery.lookup_of_follows member'.attends.labelled tracks follows rfl advertised
  · intro left topic e listed same
    have gone := gone_run roster (coherent_new roster now firstPort) reached left found
    have short := roster.short _ member.listed
    have departs : (Announcement.departure n.config.discovery.host).Fits :=
      ⟨short, (by decide : 0 + 2 < 0x100000000), fun e he => by cases he⟩
    have follows := heard _ gone.kept _ (Announcement.decode_encode departs
      (Announcement.encode_departure consistent.announceable.host))
    have none_there := follows topic e.port
    rw [← same, member'.attends.labelled.route?_of_mem_lookup listed] at none_there
    cases none_there

/-- Two nodes that can serve topics as streams. -/
def pair : List NodeConfig :=
  [⟨⟨"a", "ha", "/d", true⟩, default, 0, 0, [.stream]⟩,
    ⟨⟨"b", "hb", "/d", true⟩, default, 0, 0, [.stream]⟩]

/-- Both join, the first serves a topic, and the second hears of it. -/
def hearing : List Move :=
  [.call "a" .connect, .call "b" .connect,
    .call "a" (.subscribe "t" ⟨"c", none⟩ (.only .stream) .atMostOnce), .hand 1]

/-- The second node routes to the first one by the one port that is served. -/
theorem converges_to_served_port :
    let m := (run ([], new pair 0 7000) hearing).2
    ∃ n', m.nodes.get? "b" = some n' ∧ ∃ session,
      (n'.table.lookup "t").filter (fun e => e.host = "ha") = [⟨"ha", 7000, .stream, session⟩] := by
  intro m
  have allowed : AllAllowed (new pair 0 7000) hearing := by
    refine ⟨allowed_of_mailboxes ?_, allowed_of_mailboxes ?_, allowed_of_mailboxes ?_, trivial,
      trivial⟩
    · decide +kernel
    · decide +kernel
    · decide +kernel
  have roster : Roster "/d" (pair.map NodeConfig.discovery) := by
    refine ⟨⟨by decide, by decide⟩, by decide, ?_, by decide, by decide, by decide, by decide⟩
    intro c hc
    rcases List.mem_cons.1 hc with rfl | hc
    · exact ⟨by decide, by decide⟩
    · obtain rfl := List.mem_singleton.1 hc
      exact ⟨by decide, by decide⟩
  obtain ⟨n, found⟩ : ∃ n, m.nodes.get? "a" = some n :=
    Option.isSome_iff_exists.1 (by decide +kernel)
  obtain ⟨n', found'⟩ : ∃ n, m.nodes.get? "b" = some n :=
    Option.isSome_iff_exists.1 (by decide +kernel)
  have up : m.IsUp "a" := by
    refine ⟨n, found, ?_⟩
    have : (m.nodes.get? "a").map (fun n => n.line.isConnected m.hub) = some true := by
      decide +kernel
    rw [found] at this
    exact Option.some.inj this
  have up' : m.IsUp "b" := by
    refine ⟨n', found', ?_⟩
    have : (m.nodes.get? "b").map (fun n => n.line.isConnected m.hub) = some true := by
      decide +kernel
    rw [found'] at this
    exact Option.some.inj this
  have settled : ∀ inbox, m.hub.inboxOf "b" = some inbox → m.hub.framesIn inbox = [] := by
    intro inbox reads
    have is_one : m.hub.inboxOf "b" = some 1 := by decide +kernel
    obtain rfl := Option.some.inj (is_one.symm.trans reads)
    decide +kernel
  have served : (m.nodes.get? "a").map (fun n => (n.config.discovery.host,
      n.discovery.advertised)) = some ("ha", KeyMap.empty.insert "t" ⟨.stream, 7000⟩) := by
    decide +kernel
  rw [found] at served
  obtain ⟨host, advertised⟩ := Prod.mk.inj (Option.some.inj served)
  have carried : n.ownAnnouncement.carried = KeyMap.empty.insert "t" ⟨.stream, 7000⟩ := advertised
  have fits : n.ownAnnouncement.Fits := by
    refine ⟨?_, ?_, ?_⟩
    · show Announcement.TextFits n.config.discovery.host
      rw [host]
      decide
    · rw [carried]
      decide +kernel
    · rw [carried]
      decide +kernel
  have routes := (converges roster (reached_run .start allowed) found found' (by decide) up'
    settled).1 up fits "t" ⟨.stream, 7000⟩ (by rw [advertised]; decide +kernel)
  rw [host] at routes
  exact ⟨n', found', routes⟩

end TopicMesh.Mesh
