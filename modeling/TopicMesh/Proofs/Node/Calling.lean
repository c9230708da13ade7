import TopicMesh.Proofs.Node.Records

/-!
# Which callbacks a frame calls

A frame either goes to discovery, or brings a delivery to the callbacks of its topic
(`taken?`).  A delivery calls them in their order, each once (`invoked_deliver`); only
that of a request is silent after its last answer, which ends it (`deliver_answer`).
-/

namespace TopicMesh.Node

variable {n : Node} {frame : ServerFrame} {d : Delivery}

/-- The delivery that a frame brings to the callbacks of a node. -/
def taken? (n : Node) : ServerFrame → Option Delivery
  | .deliver m =>
    if n.config.discovery.isDiscoveryTopic m.topic then none else some (.ofMessage m)
  | _ => none

theorem taken?_deliver (n : Node) (m : Message) :
    n.taken? (.deliver m) =
      if n.config.discovery.isDiscoveryTopic m.topic then none else some (.ofMessage m) := rfl

/-- The calls of callbacks with deliveries on a topic, oldest first. -/
def log (n : Node) (topic : String) : List (String × Delivery) :=
  n.invoked.filter fun e => e.2.topic = topic

/-- A call with a delivery on the topic is the last one there. -/
theorem log_of_called {n' : Node} {name topic : String} (same : d.topic = topic)
    (called : n'.invoked = n.invoked ++ [(name, d)]) :
    n'.log topic = n.log topic ++ [(name, d)] := by
  unfold log
  rw [called, List.filter_append]
  simp [same]

theorem onFrame_of_taken (taken : n.taken? frame = some d) : n.onFrame frame = n.deliver d := by
  cases frame with
  | deliver m =>
    rw [taken?_deliver] at taken
    show n.onMessage m = n.deliver d
    unfold onMessage
    split at taken
    · cases taken
    · next other =>
      cases taken
      rw [if_neg other]
  | _ => cases taken

/-- A frame that calls nobody leaves the notes as they are. -/
theorem onFrame_of_not_taken (untaken : n.taken? frame = none) :
    (n.onFrame frame).finished = n.finished ∧ (n.onFrame frame).chores = n.chores ∧
      (n.onFrame frame).invoked = n.invoked := by
  cases frame with
  | deliver m =>
    rw [taken?_deliver] at untaken
    have heard : n.onFrame (.deliver m) = n.hear m.topic m.payload := by
      show n.onMessage m = _
      unfold onMessage
      split at untaken
      · next announced => rw [if_pos announced]
      · cases untaken
    obtain ⟨sessions, is⟩ := n.hear_eq m.topic m.payload
    rw [heard, is]
    exact ⟨rfl, rfl, rfl⟩
  | _ => exact ⟨rfl, rfl, rfl⟩

theorem topic_of_taken (taken : n.taken? frame = some d) (topic : String) :
    frame.deliveryOn? topic = if d.topic = topic then some d else none := by
  cases frame with
  | deliver m =>
    rw [taken?_deliver] at taken
    split at taken
    · cases taken
    · cases taken
      rw [Delivery.topic_ofMessage]
      rfl
  | _ => cases taken

theorem message_of_taken (taken : n.taken? frame = some d) :
    ∃ m, frame = .deliver m ∧ Delivery.ofMessage m = d := by
  cases frame with
  | deliver m =>
    rw [taken?_deliver] at taken
    split at taken
    · cases taken
    · exact ⟨m, rfl, Option.some.inj taken⟩
  | _ => cases taken

/-- The numbers that a frame leaves as they are. -/
theorem onFrame_numbers (n : Node) (frame : ServerFrame) :
    (n.onFrame frame).nextRequest = n.nextRequest ∧
      (n.onFrame frame).replySequences = n.replySequences := by
  cases frame with
  | deliver m =>
    show (n.onMessage m).nextRequest = _ ∧ (n.onMessage m).replySequences = _
    unfold onMessage
    split
    · obtain ⟨sessions, is⟩ := n.hear_eq m.topic m.payload
      rw [is]
      exact ⟨rfl, rfl⟩
    · obtain ⟨finished, chores, invoked, is⟩ := n.deliver_eq (.ofMessage m)
      rw [is]
      exact ⟨rfl, rfl⟩
  | _ => exact ⟨rfl, rfl⟩

/-! ## One callback after the other -/

/-- Calls some callbacks with a delivery. -/
def invokeAll (n : Node) (callbacks : List Callback) (d : Delivery) : Node :=
  callbacks.foldl (fun n c => n.invoke c d) n

theorem deliver_eq_invokeAll (n : Node) (d : Delivery) :
    n.deliver d = n.invokeAll (n.subscriptions.callbacks d.topic) d := rfl

/-- What every call keeps, a delivery keeps. -/
theorem invokeAll_keeps {P : Node → Prop} {callbacks : List Callback}
    (each : ∀ n, ∀ c ∈ callbacks, P n → P (n.invoke c d)) (h : P n) : P (n.invokeAll callbacks d) := by
  induction callbacks generalizing n with
  | nil => exact h
  | cons c rest ih =>
    exact ih (fun n c' there => each n c' (List.mem_cons_of_mem c there))
      (each n c List.mem_cons_self h)

theorem invoke_of_silent {c : Callback} {request : Nat} (numbered : c.request = some request)
    (silent : request ∈ n.finished) : n.invoke c d = n := by
  unfold invoke
  rw [numbered]
  exact if_pos silent

/-- A callback that is not silent is called; if that was the last answer, it is
silent from then on. -/
theorem invoke_of_live {c : Callback} (live : ∀ request, c.request = some request →
    request ∉ n.finished) :
    (n.invoke c d).invoked = n.invoked ++ [(c.name, d)] ∧
      ∀ request, request ∈ (n.invoke c d).finished →
        request ∈ n.finished ∨ c.request = some request := by
  unfold invoke
  cases numbered : c.request with
  | none => exact ⟨rfl, fun _ => .inl⟩
  | some request =>
    dsimp only
    rw [if_neg (live request numbered)]
    split
    · refine ⟨rfl, fun other there => ?_⟩
      rcases List.mem_cons.1 there with rfl | there
      · exact .inr rfl
      · exact .inl there
    · exact ⟨rfl, fun _ => .inl⟩

/-- **Callbacks of different requests, none of which is finished, are called in their
order, each once.** -/
theorem invoked_invokeAll {callbacks : List Callback} (nodup : callbacks.Nodup)
    (distinct : ∀ c ∈ callbacks, ∀ c' ∈ callbacks, c.request = c'.request →
      c.request.isSome = true → c = c')
    (live : ∀ c ∈ callbacks, ∀ request, c.request = some request → request ∉ n.finished) :
    (n.invokeAll callbacks d).invoked = n.invoked ++ callbacks.map fun c => (c.name, d) := by
  induction callbacks generalizing n with
  | nil => exact (List.append_nil _).symm
  | cons c rest ih =>
    obtain ⟨called, finished⟩ := invoke_of_live (d := d) (live c List.mem_cons_self)
    obtain ⟨new, nodup⟩ := List.nodup_cons.1 nodup
    have others : (invokeAll (n.invoke c d) rest d).invoked =
        (n.invoke c d).invoked ++ rest.map fun c => (c.name, d) := by
      refine ih nodup (fun c' there c'' there' => distinct c' (List.mem_cons_of_mem c there) c''
        (List.mem_cons_of_mem c there')) fun c' there request numbered ended => ?_
      rcases finished request ended with ended | same
      · exact live c' (List.mem_cons_of_mem c there) request numbered ended
      · -- only the first one can have that number
        have alone := distinct c List.mem_cons_self c' (List.mem_cons_of_mem c there)
          (same.trans numbered.symm) (by rw [same]; rfl)
        exact new (alone ▸ there)
    show (invokeAll (n.invoke c d) rest d).invoked = _
    rw [others, called, List.append_assoc]
    rfl

/-- An answer that is not the last ends nothing. -/
theorem deliver_of_not_last (goes_on : d.isLast = false) :
    (n.deliver d).finished = n.finished ∧ (n.deliver d).chores = n.chores := by
  refine invokeAll_keeps (P := fun n' => n'.finished = n.finished ∧ n'.chores = n.chores)
    (fun n' c _ same => ?_) ⟨rfl, rfl⟩
  unfold invoke
  cases c.request with
  | none => exact same
  | some request =>
    dsimp only
    split
    · exact same
    · rw [goes_on]
      exact same

/-- The callbacks of a topic are called with what is delivered on it. -/
theorem mem_invoked_deliver {e : String × Delivery} (called : e ∈ (n.deliver d).invoked) :
    e ∈ n.invoked ∨ e.2 = d := by
  refine invokeAll_keeps (P := fun n' => ∀ e ∈ n'.invoked, e ∈ n.invoked ∨ e.2 = d)
    (fun n' c _ before e called => ?_) (fun _ => .inl) e called
  unfold invoke at called
  have either : e ∈ n'.invoked ++ [(c.name, d)] → e ∈ n.invoked ∨ e.2 = d := by
    intro there
    rcases List.mem_append.1 there with there | there
    · exact before e there
    · exact .inr (by rw [List.mem_singleton.1 there])
  cases numbered : c.request with
  | none =>
    rw [numbered] at called
    exact either called
  | some request =>
    rw [numbered] at called
    dsimp only at called
    split at called
    · exact before e called
    · split at called <;> exact either called

/-! ## One request -/

/-- A delivery on another topic, none of whose callbacks is of a request, is of no account
to that request. -/
theorem deliver_elsewhere {topic : String} {number : Nat} (other : d.topic ≠ topic)
    (none_there : ∀ c ∈ n.subscriptions.callbacks d.topic, c.request ≠ some number) :
    (n.deliver d).log topic = n.log topic ∧
      (number ∈ (n.deliver d).finished ↔ number ∈ n.finished) ∧
      (topic ∈ (n.deliver d).chores ↔ topic ∈ n.chores) := by
  refine invokeAll_keeps (P := fun n' => n'.log topic = n.log topic ∧
    (number ∈ n'.finished ↔ number ∈ n.finished) ∧ (topic ∈ n'.chores ↔ topic ∈ n.chores))
    (fun n' c there same => ?_) ⟨rfl, .rfl, .rfl⟩
  obtain ⟨log, finished, chores⟩ := same
  have called : (n'.invoked ++ [(c.name, d)]).filter (fun e => e.2.topic = topic) =
      n.log topic := by
    rw [List.filter_append, ← log]
    simp [Node.log, other]
  unfold invoke
  cases numbered : c.request with
  | none => exact ⟨called, finished, chores⟩
  | some request =>
    have apart : number ≠ request := fun same => none_there c there (same ▸ numbered)
    dsimp only
    split
    · exact ⟨log, finished, chores⟩
    · split
      · refine ⟨called, ?_, ?_⟩
        · simp [apart, finished]
        · simp [other.symm, chores]
      · exact ⟨called, finished, chores⟩

/-- A frame that brings nothing on a topic, to a node that has the callbacks of one
request nowhere else, is of no account to that request. -/
theorem onFrame_elsewhere {topic : String} {number : Nat}
    (silent : frame.deliveryOn? topic = none)
    (sole : n.HasOnly fun t c => c.request = some number → t = topic) :
    (n.onFrame frame).log topic = n.log topic ∧
      (number ∈ (n.onFrame frame).finished ↔ number ∈ n.finished) ∧
      (topic ∈ (n.onFrame frame).chores ↔ topic ∈ n.chores) := by
  cases taken : n.taken? frame with
  | none =>
    obtain ⟨finished, chores, invoked⟩ := onFrame_of_not_taken taken
    unfold Node.log
    rw [finished, chores, invoked]
    exact ⟨rfl, .rfl, .rfl⟩
  | some d =>
    have other : d.topic ≠ topic := by
      intro same
      rw [topic_of_taken taken, if_pos same] at silent
      cases silent
    rw [onFrame_of_taken taken]
    refine deliver_elsewhere other fun c callback numbered => ?_
    unfold Subscriptions.callbacks at callback
    split at callback
    · cases callback
    · next record found => exact other (sole d.topic record found c callback numbered)

/-- **An answer calls the one callback of its topic**; the last one ends its request. -/
theorem deliver_answer {name : String} {number : Nat}
    (callbacks : n.subscriptions.callbacks d.topic = [⟨name, some number⟩])
    (open_ : number ∉ n.finished) :
    n.deliver d = { n with
      invoked := n.invoked ++ [(name, d)]
      finished := if d.isLast then number :: n.finished else n.finished
      chores := if d.isLast then n.chores ++ [d.topic] else n.chores } := by
  unfold deliver
  rw [callbacks]
  show n.invoke ⟨name, some number⟩ d = _
  unfold invoke
  dsimp only
  rw [if_neg open_]
  cases d.isLast <;> rfl

/-- After the last answer the callback is silent. -/
theorem deliver_after_last {name : String} {number : Nat}
    (callbacks : n.subscriptions.callbacks d.topic = [] ∨
      n.subscriptions.callbacks d.topic = [⟨name, some number⟩])
    (ended : number ∈ n.finished) : n.deliver d = n := by
  unfold deliver
  rcases callbacks with callbacks | callbacks
  · rw [callbacks]
    rfl
  · rw [callbacks]
    exact invoke_of_silent (c := ⟨name, some number⟩) rfl ended

end TopicMesh.Node
