import TopicMesh.Proofs.Broker.Stirring

/-!
# Frames taken from the queues

The owners of inboxes take their frames one at a time, in any order of the inboxes
(`pops`).  What one reader has taken then (`taken`) depends only on the queues of its own
inboxes.

A hub is **ahead** of another one for a reader if it differs for it by at most one frame
more at the end of one queue (`Ahead`).  Then the reader takes the same frames from both,
that one apart (`taken_of_ahead`).  A publication puts the hub ahead for each other client
that owns its topic (`ahead_publish`).
-/

namespace TopicMesh.Hub

variable {h h' h'' : Hub} {reader client : String} {inbox : Nat} {late : Option ServerFrame}

/-- The hub after the oldest frame of an inbox was taken, if one waits there. -/
def popped (h : Hub) (inbox : Nat) : Hub :=
  ((h.pop? inbox).map Prod.fst).getD h

/-- The hub after frames were taken from some inboxes, in order. -/
def pops (h : Hub) (order : List Nat) : Hub :=
  order.foldl popped h

/-- What a reader gets when the oldest frame of an inbox is taken. -/
def gets (h : Hub) (reader : String) (inbox : Nat) : List ServerFrame :=
  if h.ownerOf? inbox = some reader then (h.framesIn inbox).take 1 else []

/-- What a reader gets when frames are taken from some inboxes, in order. -/
def taken (reader : String) : Hub → List Nat → List ServerFrame
  | _, [] => []
  | h, inbox :: rest => h.gets reader inbox ++ taken reader (h.popped inbox) rest

/-! ## One frame -/

theorem pop?_eq_none_iff : h.pop? inbox = none ↔ h.framesIn inbox = [] := by
  unfold pop? framesIn
  cases h.mailboxes.get? inbox with
  | none => exact iff_of_true rfl rfl
  | some box =>
    obtain ⟨client, frames⟩ := box
    cases frames with
    | nil => exact iff_of_true rfl rfl
    | cons frame rest => exact iff_of_false nofun nofun

theorem ownerOf?_popped (h : Hub) (inbox other : Nat) :
    (h.popped inbox).ownerOf? other = h.ownerOf? other := by
  unfold popped
  cases is : h.pop? inbox with
  | none => rfl
  | some result =>
    obtain ⟨hub, client, frame⟩ := result
    exact (ownerOf?_of_pop? is other).1

theorem ownerOf?_pops (h : Hub) (order : List Nat) (other : Nat) :
    (h.pops order).ownerOf? other = h.ownerOf? other := by
  induction order generalizing h with
  | nil => rfl
  | cons first rest ih => exact (ih (h.popped first)).trans (ownerOf?_popped h first other)

theorem framesIn_popped (h : Hub) (inbox other : Nat) :
    (h.popped inbox).framesIn other =
      if inbox = other then (h.framesIn other).drop 1 else h.framesIn other := by
  unfold popped
  cases is : h.pop? inbox with
  | none =>
    have nothing := pop?_eq_none_iff.1 is
    split
    · next same =>
      subst same
      show h.framesIn inbox = _
      rw [nothing]
      rfl
    · rfl
  | some result =>
    obtain ⟨hub, client, frame⟩ := result
    rw [framesIn_of_pop? is other]
    split <;> rfl

theorem framesIn_pops (h : Hub) (order : List Nat) (inbox : Nat) :
    (h.pops order).framesIn inbox = (h.framesIn inbox).drop (order.count inbox) := by
  induction order generalizing h with
  | nil => rfl
  | cons first rest ih =>
    show ((h.popped first).pops rest).framesIn inbox = _
    rw [ih, framesIn_popped, List.count_cons]
    by_cases here : first = inbox
    · rw [if_pos here, if_pos (beq_iff_eq.2 here), List.drop_drop, Nat.add_comm]
    · rw [if_neg here, if_neg (fun same => here (beq_iff_eq.1 same)), Nat.add_zero]

theorem taken_append (h : Hub) (order more : List Nat) :
    h.taken reader (order ++ more) = h.taken reader order ++ (h.pops order).taken reader more := by
  induction order generalizing h with
  | nil => rfl
  | cons first rest ih =>
    show h.gets reader first ++ (h.popped first).taken reader (rest ++ more) = _
    rw [ih, ← List.append_assoc]
    rfl

/-- From one inbox its owner takes the frames in their order. -/
theorem taken_replicate (owner : h.ownerOf? inbox = some reader) (count : Nat) :
    h.taken reader (List.replicate count inbox) = (h.framesIn inbox).take count := by
  induction count generalizing h with
  | zero => rfl
  | succ count ih =>
    show h.gets reader inbox ++ (h.popped inbox).taken reader (List.replicate count inbox) = _
    rw [ih ((ownerOf?_popped h inbox inbox).trans owner), framesIn_popped, if_pos rfl, gets,
      if_pos owner, Nat.add_comm, List.take_add]

theorem framesIn_of_pending (none_waits : h.pending = 0) (inbox : Nat) : h.framesIn inbox = [] := by
  have empty := List.eq_nil_of_length_eq_zero none_waits
  unfold framesIn
  cases found : h.mailboxes.get? inbox with
  | none => rfl
  | some box =>
    exact List.flatMap_eq_nil_iff.1 empty box (KeyMap.mem_values_iff.2 ⟨inbox, found⟩)

/-! ## One frame more -/

/-- **Whether a hub differs for a reader by at most one frame more**, at the end of the
queue of an inbox. -/
structure Ahead (reader : String) (inbox : Nat) (late : Option ServerFrame) (h h' : Hub) : Prop where
  owner : ∀ other, h'.ownerOf? other = h.ownerOf? other
  queue : ∀ other, h.ownerOf? other = some reader →
    h'.framesIn other = h.framesIn other ++ if other = inbox then late.toList else []

theorem Ahead.refl (reader : String) (inbox : Nat) (h : Hub) : Ahead reader inbox none h h :=
  ⟨fun _ => rfl, fun _ _ => by rw [Option.toList_none, ite_self, List.append_nil]⟩

theorem Ahead.trans (first : Ahead reader inbox none h h') (next : Ahead reader inbox late h' h'') :
    Ahead reader inbox late h h'' := by
  refine ⟨fun other => (next.owner other).trans (first.owner other), fun other owner => ?_⟩
  rw [next.queue other ((first.owner other).trans owner), first.queue other owner,
    Option.toList_none, ite_self, List.append_nil]

/-- The frames of the others do not matter to a reader. -/
theorem Ahead.popped_elsewhere (ahead : Ahead reader inbox late h h') {other : Nat}
    (foreign : h.ownerOf? other ≠ some reader) :
    Ahead reader inbox late (h.popped other) (h'.popped other) := by
  refine ⟨fun j => ?_, fun j owner => ?_⟩
  · rw [ownerOf?_popped, ownerOf?_popped, ahead.owner]
  · rw [ownerOf?_popped] at owner
    have apart : other ≠ j := fun same => foreign (same ▸ owner)
    rw [framesIn_popped, framesIn_popped, if_neg apart, if_neg apart, ahead.queue j owner]

/-- A frame that waits in both queues. -/
theorem Ahead.popped_both (ahead : Ahead reader inbox late h h') {other : Nat}
    (owner : h.ownerOf? other = some reader) (waits : h.framesIn other ≠ [] ∨ other ≠ inbox) :
    h'.gets reader other = h.gets reader other ∧
      Ahead reader inbox late (h.popped other) (h'.popped other) := by
  have queue := ahead.queue other owner
  have both : (h'.framesIn other).take 1 = (h.framesIn other).take 1 ∧
      (h'.framesIn other).drop 1 =
        (h.framesIn other).drop 1 ++ if other = inbox then late.toList else [] := by
    rw [queue]
    cases frames : h.framesIn other with
    | cons frame rest => exact ⟨rfl, rfl⟩
    | nil =>
      have elsewhere := waits.resolve_left fun some => some frames
      rw [if_neg elsewhere]
      exact ⟨rfl, rfl⟩
  refine ⟨?_, fun j => ?_, fun j owner' => ?_⟩
  · unfold gets
    rw [ahead.owner, both.1]
  · rw [ownerOf?_popped, ownerOf?_popped, ahead.owner]
  · rw [ownerOf?_popped] at owner'
    rw [framesIn_popped, framesIn_popped]
    by_cases here : other = j
    · subst here
      rw [if_pos rfl, if_pos rfl, both.2]
    · rw [if_neg here, if_neg here, ahead.queue j owner']

/-- The frame that waits in one queue only. -/
theorem Ahead.popped_late (ahead : Ahead reader inbox late h h')
    (owner : h.ownerOf? inbox = some reader) (nothing : h.framesIn inbox = []) :
    h.gets reader inbox = [] ∧ h'.gets reader inbox = late.toList ∧
      Ahead reader inbox none (h.popped inbox) (h'.popped inbox) := by
  have queue := ahead.queue inbox owner
  rw [nothing, if_pos rfl, List.nil_append] at queue
  refine ⟨?_, ?_, fun j => ?_, fun j owner' => ?_⟩
  · rw [gets, nothing, List.take_nil, ite_self]
  · rw [gets, ahead.owner, if_pos owner, queue]
    cases late <;> rfl
  · rw [ownerOf?_popped, ownerOf?_popped, ahead.owner]
  · rw [ownerOf?_popped] at owner'
    rw [framesIn_popped, framesIn_popped, Option.toList_none, ite_self, List.append_nil]
    by_cases here : inbox = j
    · subst here
      rw [if_pos rfl, if_pos rfl, queue, nothing]
      cases late <;> rfl
    · rw [if_neg here, if_neg here, ahead.queue j owner', if_neg fun same => here same.symm,
        List.append_nil]

/-- **A reader takes the same frames from both**, but perhaps for the one more. -/
theorem taken_of_ahead (order : List Nat) {h h' : Hub} {late : Option ServerFrame}
    (ahead : Ahead reader inbox late h h') :
    ∃ before between after, h.taken reader order = before ++ after ∧
      h'.taken reader order = before ++ between ++ after ∧ (between = [] ∨ between = late.toList) := by
  induction order generalizing h h' late with
  | nil => exact ⟨[], [], [], rfl, rfl, .inl rfl⟩
  | cons first rest ih =>
    unfold taken
    by_cases owner : h.ownerOf? first = some reader
    · by_cases waits : h.framesIn first ≠ [] ∨ first ≠ inbox
      · obtain ⟨same, ahead⟩ := ahead.popped_both owner waits
        obtain ⟨before, between, after, quiet, told, which⟩ := ih ahead
        refine ⟨h.gets reader first ++ before, between, after, ?_, ?_, which⟩
        · rw [quiet, List.append_assoc]
        · rw [same, told]
          simp only [List.append_assoc]
      · obtain ⟨nothing, rfl⟩ : h.framesIn first = [] ∧ first = inbox := by
          simpa only [not_or, not_not, ne_eq] using waits
        obtain ⟨quiet, told, ahead⟩ := ahead.popped_late owner nothing
        obtain ⟨before, between, after, quiet', told', which⟩ := ih ahead
        -- the queues are the same from now on
        have done : between = [] := which.elim id id
        refine ⟨[], late.toList, before ++ after, ?_, ?_, .inr rfl⟩
        · rw [quiet, quiet']
        · rw [told, told', done, List.append_nil]
          rfl
    · obtain ⟨before, between, after, quiet, told, which⟩ := ih (ahead.popped_elsewhere owner)
      have nothing : h.gets reader first = [] ∧ h'.gets reader first = [] :=
        ⟨if_neg owner, if_neg (ahead.owner first ▸ owner)⟩
      exact ⟨before, between, after, by rw [nothing.1, quiet]; rfl, by rw [nothing.2, told]; rfl, which⟩

/-- The late frame stays where it is while no more is taken than waits without it. -/
theorem taken_in_time (order : List Nat) {h h' : Hub}
    (ahead : Ahead reader inbox late h h')
    (in_time : order.count inbox ≤ (h.framesIn inbox).length) :
    h'.taken reader order = h.taken reader order ∧
      Ahead reader inbox late (h.pops order) (h'.pops order) := by
  induction order generalizing h h' with
  | nil => exact ⟨rfl, ahead⟩
  | cons first rest ih =>
    have later : rest.count inbox ≤ ((h.popped first).framesIn inbox).length := by
      rw [List.count_cons] at in_time
      rw [framesIn_popped]
      split
      · next here =>
        rw [if_pos (beq_iff_eq.2 here)] at in_time
        rw [List.length_drop]
        omega
      · exact Nat.le_trans (Nat.le_add_right ..) in_time
    by_cases owner : h.ownerOf? first = some reader
    · have waits : h.framesIn first ≠ [] ∨ first ≠ inbox := by
        by_cases here : first = inbox
        · subst here
          refine .inl fun nothing => ?_
          rw [List.count_cons_self, nothing] at in_time
          exact Nat.not_succ_le_zero _ in_time
        · exact .inr here
      obtain ⟨same, ahead⟩ := ahead.popped_both owner waits
      obtain ⟨quiet, ahead⟩ := ih ahead later
      exact ⟨by rw [taken, taken, same, quiet], ahead⟩
    · obtain ⟨quiet, ahead'⟩ := ih (ahead.popped_elsewhere owner) later
      have nothing : h.gets reader first = [] ∧ h'.gets reader first = [] :=
        ⟨if_neg owner, if_neg (ahead.owner first ▸ owner)⟩
      exact ⟨by rw [taken, taken, nothing.1, nothing.2, quiet], ahead'⟩

/-! ## What one client says -/

/-- **A publication puts the hub ahead** for each client that owns its topic. -/
theorem ahead_publish (sound : h.Sound) (m : Message) (reader : String) (inbox : Nat) :
    Ahead reader ((h.inboxOf reader).getD inbox)
      (if (h.inboxOf reader).isSome ∧ h.broker.owns m.topic reader = true then
        some (.deliver { m.stamp h.now with retain := false }) else none) h (h.publish m) := by
  refine ⟨fun other => ownerOf?_publish m, fun other owner => ?_⟩
  rw [framesIn_publish sound, readerOf?_of_owner owner]
  cases h.inboxOf reader with
  | none => simp
  | some reads =>
    rw [Option.getD_some]
    by_cases here : reads = other
    · subst here
      rw [if_pos rfl, if_pos rfl, Option.filter_some]
      cases h.broker.owns m.topic reader <;> rfl
    · rw [if_neg (here ∘ Option.some.inj), if_neg (here ∘ Eq.symm)]
      rfl

/-- A subscription brings frames to the client that makes it. -/
theorem ahead_subscribe (sound : h.Sound) (filter : String) (qos : QoS) (other : client ≠ reader)
    (inbox : Nat) : Ahead reader inbox none h (h.subscribe filter client qos) := by
  refine ⟨fun j => ownerOf?_subscribe filter qos, fun j owner => ?_⟩
  have foreign : h.inboxOf client ≠ some j := fun reads =>
    other (Option.some.inj ((sound.ownerOf?_of_inboxOf reads).symm.trans owner))
  rw [framesIn_subscribe filter client qos sound, if_neg foreign, Option.toList_none, ite_self]

/-- What the subscription of another client leaves of who owns a topic. -/
theorem owns_subscribe (sound : h.Sound) (filter : String) (qos : QoS) (other : client ≠ reader)
    (topic : String) :
    (h.subscribe filter client qos).broker.owns topic reader = h.broker.owns topic reader := by
  have sound' := sound_subscribe filter client qos sound
  have same : ∀ f, (h.subscribe filter client qos).broker.subscribed f reader =
      h.broker.subscribed f reader := fun f => by
    rw [broker_subscribe, Broker.subscribed_subscribe, decide_eq_false fun all => other all.2.2,
      Bool.or_false]
  rw [Bool.eq_iff_iff, sound'.filed.owns_iff, sound.filed.owns_iff]
  simp only [same]

/-! ## An order in which the late frame comes last -/

/-- The inboxes that hold frames, each once for each of its frames. -/
def waitingIn (h : Hub) : List Nat :=
  h.mailboxes.keys.flatMap fun inbox => List.replicate (h.framesIn inbox).length inbox

/-- An order that empties the other inboxes first. -/
def orderTo (h : Hub) (inbox : Nat) : List Nat :=
  h.waitingIn.filter (· ≠ inbox) ++ List.replicate (h.framesIn inbox).length inbox

theorem length_le_count_waitingIn (h : Hub) (inbox : Nat) :
    (h.framesIn inbox).length ≤ h.waitingIn.count inbox := by
  cases known : h.mailboxes.get? inbox with
  | none =>
    have nothing : h.framesIn inbox = [] := by rw [framesIn, known]; rfl
    rw [nothing]
    exact Nat.zero_le _
  | some box =>
    have listed : inbox ∈ h.mailboxes.keys := KeyMap.mem_keys_iff.2 ⟨box, known⟩
    have part : (List.replicate (h.framesIn inbox).length inbox).Sublist h.waitingIn :=
      List.sublist_flatten_of_mem (List.mem_map.2 ⟨inbox, listed, rfl⟩)
    have counted := part.count_le inbox
    rwa [List.count_replicate_self] at counted

/-- Then nothing waits any more. -/
theorem framesIn_pops_orderTo (h : Hub) (inbox other : Nat) :
    (h.pops (h.orderTo inbox)).framesIn other = [] := by
  rw [framesIn_pops]
  refine List.drop_eq_nil_of_le ?_
  unfold orderTo
  rw [List.count_append]
  by_cases here : other = inbox
  · subst here
    rw [List.count_replicate_self]
    exact Nat.le_add_left ..
  · rw [List.count_filter (by simpa using here)]
    exact Nat.le_trans (h.length_le_count_waitingIn other) (Nat.le_add_right ..)

theorem count_others (h : Hub) (inbox : Nat) :
    (h.waitingIn.filter (· ≠ inbox)).count inbox = 0 :=
  List.count_eq_zero_of_not_mem fun there => by simpa using (List.mem_filter.1 there).2

/-- As many frames are taken from the last inbox as wait there. -/
theorem count_orderTo (h : Hub) (inbox : Nat) :
    (h.orderTo inbox).count inbox = (h.framesIn inbox).length := by
  unfold orderTo
  rw [List.count_append, count_others, List.count_replicate_self, Nat.zero_add]

theorem taken_of_nothing (order : List Nat) {h : Hub} (nothing : ∀ inbox, h.framesIn inbox = []) :
    h.taken reader order = [] := by
  induction order generalizing h with
  | nil => rfl
  | cons first rest ih =>
    have still : ∀ inbox, (h.popped first).framesIn inbox = [] := fun inbox => by
      rw [framesIn_popped, nothing, List.drop_nil, ite_self]
    rw [taken, ih still, gets, nothing, List.take_nil, ite_self]
    rfl

/-- The late frame is all that is left for the reader, and it takes that. -/
theorem taken_late (ahead : Ahead reader inbox late h h') (owner : h.ownerOf? inbox = some reader)
    (nothing : ∀ other, h.framesIn other = []) :
    h'.taken reader (h'.orderTo inbox) = late.toList := by
  have before : (h'.waitingIn.filter (· ≠ inbox)).count inbox ≤ (h.framesIn inbox).length :=
    (h'.count_others inbox).symm ▸ Nat.zero_le _
  obtain ⟨same, ahead'⟩ := taken_in_time _ ahead before
  have owner' := (ownerOf?_pops h (h'.waitingIn.filter (· ≠ inbox)) inbox).trans owner
  have queue := ahead'.queue inbox owner'
  rw [framesIn_pops, framesIn_pops, count_others, List.drop_zero, List.drop_zero, nothing,
    if_pos rfl, List.nil_append] at queue
  unfold orderTo
  rw [taken_append, same, taken_of_nothing _ nothing, List.nil_append,
    taken_replicate ((ahead'.owner inbox).trans owner'), framesIn_pops, count_others,
    List.drop_zero, List.take_length, queue]

/-- **In some order the late frame is the last that the reader takes**, and nothing waits
then. -/
theorem exists_taken_at_last (ahead : Ahead reader inbox late h h')
    (owner : h.ownerOf? inbox = some reader) :
    ∃ order, h.taken reader order = h.taken reader (h.orderTo inbox) ∧
      h'.taken reader order = h.taken reader (h.orderTo inbox) ++ late.toList ∧
      ∀ other, (h'.pops order).framesIn other = [] := by
  obtain ⟨same, ahead'⟩ := taken_in_time _ ahead (Nat.le_of_eq (h.count_orderTo inbox))
  have emptied := h.framesIn_pops_orderTo inbox
  have owner' := (ownerOf?_pops h (h.orderTo inbox) inbox).trans owner
  refine ⟨h.orderTo inbox ++ (h'.pops (h.orderTo inbox)).orderTo inbox, ?_, ?_, fun other => ?_⟩
  · rw [taken_append, taken_of_nothing _ emptied, List.append_nil]
  · rw [taken_append, same, taken_late ahead' owner' emptied]
  · unfold pops
    rw [List.foldl_append]
    exact framesIn_pops_orderTo ..

end TopicMesh.Hub
