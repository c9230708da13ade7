import Mathlib.Data.List.DropRight
import TopicMesh.Proofs.Mesh.Exchange
import TopicMesh.Proofs.Sequence.Places

/-!
# The numbers of answers when the line is lost

A call that answers on a topic takes the next number of the topic first, and forgets the
topic first if its answer is to be the last one; only then is the answer published.  A
call without a line fails at that (`attempt?_reply`), and what it took stays taken.  So a
number counts calls and not answers: those since the last call that was to close the
series, whether they failed or not (`numbered_play`).

The answers that are given are numbered without a gap, if and only if every run of failed
calls before one of them is made up for (`MadeUp`, `AnswersNumbered.gapless`): by nothing
but a last answer that failed too, and as many failures after it as there had been
answers.
-/

namespace TopicMesh

namespace Node

open Act

variable {s : Station}

/-! ## Who changes the numbers of answers -/

/-- Whoever joins goes on with the numbers that it has. -/
theorem replySequences_connect (steady : s.Steady) :
    (after connect s).node.replySequences = s.node.replySequences := by
  cases vacant : s.node.line.inbox with
  | some inbox =>
    have stays : ¬(Call.connect.license s.node).roams := fun none_there =>
      nomatch vacant.symm.trans none_there
    exact ((course_call steady .connect).settled stays).2
  | none =>
    rcases connect_of_lost steady vacant with stays | ⟨will, -, run⟩
    · rw [stays]
    · rw [run]
      have stays : ¬(Call.connect.license (readmitted s will).node).roams := nofun
      exact ((course_startDiscovery (s := readmitted s will) steady).settled stays).2

/-- **Only an answer takes a number, and only who leaves forgets them.** -/
theorem replySequences_job (steady : s.Steady) {job : Job} (stays : job ≠ .call .disconnect) :
    (after job.act s).node.replySequences = (job.prepare s.node).replySequences := by
  have course := course_job steady job
  cases job with
  | call c =>
    cases c with
    | connect => exact replySequences_connect steady
    | disconnect => exact absurd rfl stays
    | abort =>
      obtain ⟨events, run⟩ := abort_ok s
      show (after abort s).node.replySequences = s.node.replySequences
      rw [after_ok run]
      rfl
    | _ => exact (course.settled not_false).2
  | _ => exact (course.settled not_false).2

end Node

namespace Mesh

open Node Act

/-! ## Calls that answer -/

/-- **A call that answers on a topic**: what it is to publish, and what came of it. -/
structure Attempt where
  message : Message
  outcome : Except Error Unit

namespace Attempt

/-- The number of the answer, as whoever listens to the topic is handed it. -/
def number (a : Attempt) : UInt32 :=
  (Delivery.ofMessage a.message).sequence

/-- Whether the answer is to be the last of its series. -/
def isLast (a : Attempt) : Bool :=
  (Delivery.ofMessage a.message).isLast

def succeeded (a : Attempt) : Bool :=
  a.outcome.isOk

def failed (a : Attempt) : Bool :=
  !a.succeeded

/-- Whether the answer was published, or there was no line and nothing has happened at
the hub. -/
def Tells (a : Attempt) (m m' : Mesh) : Prop :=
  a.outcome = .ok () ∧ m'.hub = m.hub.publish a.message ∨
    a.outcome = .error .notConnected ∧ m'.hub = m.hub

end Attempt

/-- The call by which a node answers on a topic in a turn. -/
def Turn.attempt? (id topic : String) (m : Mesh) : Turn → Option Attempt
  | work who (.reply d payload isLast) =>
    if who = id ∧ d.replyTopic = some topic then do
      let n ← m.nodes.get? id
      let outcome ← (m.perform id (Node.reply d payload isLast)).2
      return ⟨n.answer d payload isLast topic, outcome⟩
    else none
  | _ => none

/-- **The calls by which a node answers on a topic** in some turns. -/
def attempts (id topic : String) : Mesh → List Turn → List Attempt
  | _, [] => []
  | m, turn :: rest => (turn.attempt? id topic m).toList ++ attempts id topic (turn.result m) rest

/-- How many calls there have been since the last one that was to close the series. -/
def taken (calls : List Attempt) : Nat :=
  calls.foldl (fun count a => if a.isLast then 0 else count + 1) 0

/-- The calls since the last answer of a series was given. -/
def current (calls : List Attempt) : List Attempt :=
  calls.foldl (fun calls a => if a.succeeded && a.isLast then [] else calls ++ [a]) []

/-- The answers that have been given since the last one of a series. -/
def given (calls : List Attempt) : List Attempt :=
  (current calls).filter Attempt.succeeded

/-- **Whether the answers of the current series are numbered without a gap.** -/
def Consecutive (calls : List Attempt) : Prop :=
  (given calls).map (fun a => a.number.toNat) = List.range (given calls).length

/-- Whether the calls that failed at the end of some calls are made up for: there are none,
or some of them were to close the series, and after the last of these as many failed as
answers had been given. -/
def MadeUp (calls : List Attempt) : Prop :=
  let failed := calls.rtakeWhile Attempt.failed
  failed = [] ∨ failed.any Attempt.isLast = true ∧ taken failed = calls.countP Attempt.succeeded

/-- Whether every call takes the number of the calls since the last one that was to
close the series. -/
def Numbered (calls : List Attempt) : Prop :=
  ∀ past a later, calls = past ++ a :: later → a.number = .ofNat (taken past)

/-! ## Counting calls -/

section Counting

variable {calls past : List Attempt} {a b : Attempt}

@[simp] theorem taken_nil : taken [] = 0 := rfl

theorem taken_concat (calls : List Attempt) (a : Attempt) :
    taken (calls ++ [a]) = if a.isLast then 0 else taken calls + 1 :=
  List.foldl_concat ..

theorem taken_le_length (calls : List Attempt) : taken calls ≤ calls.length := by
  induction calls using List.reverseRecOn with
  | nil => exact Nat.le_refl 0
  | append_singleton calls a ih =>
    rw [taken_concat, List.length_append, List.length_singleton]
    split <;> omega

/-- Calls count from the last one that was to close the series, wherever it is. -/
theorem taken_append (past calls : List Attempt) :
    taken (past ++ calls) =
      if calls.any Attempt.isLast then taken calls else taken past + calls.length := by
  induction calls using List.reverseRecOn with
  | nil => rw [List.append_nil]; rfl
  | append_singleton calls a ih =>
    rw [← List.append_assoc, taken_concat, taken_concat, ih, List.any_append, List.any_cons,
      List.any_nil, Bool.or_false, List.length_append]
    cases last : a.isLast with
    | true => rw [Bool.or_true, if_pos rfl, if_pos rfl, if_pos rfl]
    | false =>
      rw [Bool.or_false, if_neg Bool.false_ne_true, if_neg Bool.false_ne_true]
      split <;> rfl

theorem current_concat (calls : List Attempt) (a : Attempt) :
    current (calls ++ [a]) =
      if a.succeeded && a.isLast then [] else current calls ++ [a] :=
  List.foldl_concat ..

/-- The calls before the current series do not count. -/
theorem exists_current (calls : List Attempt) :
    ∃ gone, calls = gone ++ current calls ∧ taken gone = 0 := by
  induction calls using List.reverseRecOn with
  | nil => exact ⟨[], rfl, rfl⟩
  | append_singleton calls a ih =>
    obtain ⟨gone, split, none_taken⟩ := ih
    rw [current_concat]
    split
    · next closes =>
      refine ⟨calls ++ [a], (List.append_nil _).symm, ?_⟩
      rw [taken_concat, if_pos (Bool.and_eq_true_iff.1 closes).2]
    · refine ⟨gone, ?_, none_taken⟩
      rw [← List.append_assoc, ← split]

/-- No answer of the current series has closed it. -/
theorem not_isLast_of_mem_current (there : a ∈ current calls) (succeeded : a.succeeded = true) :
    a.isLast = false := by
  induction calls using List.reverseRecOn with
  | nil => cases there
  | append_singleton calls b ih =>
    rw [current_concat] at there
    split at there
    · cases there
    · next open_ =>
      rcases List.mem_append.1 there with there | there
      · exact ih there
      · cases List.mem_singleton.1 there
        simpa [succeeded] using open_

theorem numbered_concat (numbered : Numbered calls) (next : a.number = .ofNat (taken calls)) :
    Numbered (calls ++ [a]) :=
  forall_split_concat.2 ⟨numbered, next⟩

/-- Calls end in those that failed last; only the others before them gave answers. -/
theorem countP_rdropWhile (calls : List Attempt) :
    (calls.rdropWhile Attempt.failed).countP Attempt.succeeded =
      calls.countP Attempt.succeeded := by
  have none_given : (calls.rtakeWhile Attempt.failed).countP Attempt.succeeded = 0 :=
    List.countP_eq_zero.2 fun a there => by simpa [Attempt.failed] using List.mem_rtakeWhile_imp there
  have whole := congrArg (List.countP Attempt.succeeded)
    (List.rdropWhile_append_rtakeWhile (p := Attempt.failed) (l := calls))
  rw [List.countP_append, none_given] at whole
  exact whole

/-- If the next number was right before the last failures, it is right after them just
when they are made up for. -/
theorem madeUp_iff (right : taken (calls.rdropWhile Attempt.failed) =
      (calls.rdropWhile Attempt.failed).countP Attempt.succeeded) :
    MadeUp calls ↔ taken calls = calls.countP Attempt.succeeded := by
  have whole := congrArg taken (List.rdropWhile_append_rtakeWhile (p := Attempt.failed) (l := calls))
  rw [taken_append, right, countP_rdropWhile] at whole
  unfold MadeUp
  dsimp only
  rw [← whole]
  split
  · next closed =>
    have some_failed : (calls.rtakeWhile Attempt.failed) ≠ [] := by
      intro none_failed
      rw [none_failed] at closed
      cases closed
    simp only [some_failed, closed, false_or, true_and]
  · next open_ =>
    simp only [open_, Bool.false_eq_true, false_and, or_false, Nat.add_eq_left,
      List.length_eq_zero_iff]

/-- After an answer of a series that goes on, and with none at all, the next number is
right if it was right before each of the answers. -/
theorem taken_rdropWhile (goes_on : ∀ a ∈ calls, a.succeeded = true → a.isLast = false)
    (right : ∀ past a later, calls = past ++ a :: later → a.succeeded = true →
      taken past = past.countP Attempt.succeeded) :
    taken (calls.rdropWhile Attempt.failed) =
      (calls.rdropWhile Attempt.failed).countP Attempt.succeeded := by
  have whole := List.rdropWhile_append_rtakeWhile (p := Attempt.failed) (l := calls)
  rcases List.eq_nil_or_concat (calls.rdropWhile Attempt.failed) with
    none_given | ⟨front, a, is⟩
  · rw [none_given]
    rfl
  · rw [List.concat_eq_append] at is
    have succeeded : a.succeeded = true := by
      have last := List.rdropWhile_last_not Attempt.failed calls
        (is ▸ List.append_ne_nil_of_right_ne_nil front (List.cons_ne_nil a []))
      simpa [is, Attempt.failed] using last
    rw [is, List.append_assoc] at whole
    have there : a ∈ calls := whole ▸ List.mem_append_right front List.mem_cons_self
    rw [is, taken_concat, goes_on a there succeeded, if_neg Bool.false_ne_true,
      right front a _ whole.symm succeeded, List.countP_append, List.countP_singleton, succeeded]
    rfl

/-- **In a series that goes on, every answer takes the number of the answers before it, if
and only if all failures before an answer are made up for.** -/
theorem forall_taken_eq_iff (goes_on : ∀ a ∈ calls, a.succeeded = true → a.isLast = false) :
    (∀ past a later, calls = past ++ a :: later → a.succeeded = true →
        taken past = past.countP Attempt.succeeded) ↔
      ∀ past a later, calls = past ++ a :: later → a.succeeded = true → MadeUp past := by
  induction calls using List.reverseRecOn with
  | nil => simp
  | append_singleton calls b ih =>
    have goes_on' : ∀ a ∈ calls, a.succeeded = true → a.isLast = false := fun a there =>
      goes_on a (List.mem_append_left [b] there)
    rw [forall_split_concat (P := fun past a => a.succeeded = true →
        taken past = past.countP Attempt.succeeded),
      forall_split_concat (P := fun past a => a.succeeded = true → MadeUp past), ← ih goes_on']
    -- the answers before the last call are right on both sides, so its failures decide
    refine and_congr_right fun right => ?_
    rw [madeUp_iff (taken_rdropWhile goes_on' right)]

theorem Numbered.toNat (numbered : Numbered calls) (short : calls.length < UInt32.size)
    {later : List Attempt} (split : calls = past ++ a :: later) : a.number.toNat = taken past := by
  have few : taken past < UInt32.size := by
    have bound := taken_le_length past
    rw [split, List.length_append] at short
    omega
  rw [numbered past a later split, UInt32.toNat_ofNat_of_lt' few]

/-- **There is no gap if and only if all failures before an answer are made up for.** -/
theorem consecutive_iff (numbered : Numbered calls) (short : calls.length < UInt32.size) :
    Consecutive calls ↔
      ∀ past a later, current calls = past ++ a :: later → a.succeeded = true → MadeUp past := by
  obtain ⟨gone, split, none_taken⟩ := exists_current calls
  have goes_on : ∀ a ∈ current calls, a.succeeded = true → a.isLast = false :=
    fun a there => not_isLast_of_mem_current there
  unfold Consecutive given
  rw [map_filter_eq_range_iff, ← forall_taken_eq_iff goes_on]
  refine forall_congr' fun past => forall_congr' fun a => forall_congr' fun later =>
    forall_congr' fun here => ?_
  have number : a.number.toNat = taken past := by
    rw [here, ← List.append_assoc] at split
    rw [numbered.toNat short split, taken_append, none_taken, ← taken_nil, ← taken_append,
      List.nil_append]
  rw [number]

end Counting

/-! ## Calls in a mesh -/

section Calls

variable {m : Mesh} {id topic : String} {n : Node} {turn : Turn} {turns : List Turn}
  {a : Attempt} {past : List Attempt}

theorem perform_ok (found : m.nodes.get? id = some n) {act : Act Unit} {t : Station}
    (run : act (m.station id n) = .ok () t) : (m.perform id act).2 = some (.ok ()) := by
  unfold perform
  rw [found]
  dsimp only
  rw [show act ⟨n, m.hub, m.network, m.outage id⟩ = .ok () t from run]

theorem perform_error (found : m.nodes.get? id = some n) {act : Act Unit} {e : Error} {t : Station}
    (run : act (m.station id n) = .error e t) : (m.perform id act).2 = some (.error e) := by
  unfold perform
  rw [found]
  dsimp only
  rw [show act ⟨n, m.hub, m.network, m.outage id⟩ = .error e t from run]

theorem attempt?_eq_some (there : turn.attempt? id topic m = some a) :
    ∃ d payload isLast n, turn = .work id (.reply d payload isLast) ∧ d.replyTopic = some topic ∧
      m.nodes.get? id = some n := by
  unfold Turn.attempt? at there
  split at there
  · next who d payload isLast =>
    split at there
    · next own =>
      cases found : m.nodes.get? id with
      | none =>
        rw [found] at there
        cases there
      | some n => exact ⟨d, payload, isLast, n, by rw [own.1], own.2, rfl⟩
    · cases there
  · cases there

theorem attempt?_eq_none {who : String} {job : Job} (other : who = id → m.nodes.get? id = none) :
    (Turn.work who job).attempt? id topic m = none := by
  refine Option.eq_none_iff_forall_ne_some.2 fun a there => ?_
  obtain ⟨d, payload, isLast, n, is, -, found⟩ := attempt?_eq_some there
  cases is
  cases found.symm.trans (other rfl)

/-- **A call that answers**: its answer has the next number, and is published if there is
a line. -/
theorem attempt?_reply (orderly : m.Orderly) (found : m.nodes.get? id = some n) {d : Delivery}
    (wanted : d.replyTopic = some topic) (payload : Bytes) (isLast : Bool) :
    let turn := Turn.work id (.reply d payload isLast)
    ∃ a, turn.attempt? id topic m = some a ∧ a.message = n.answer d payload isLast topic ∧
      a.Tells m (turn.result m) := by
  intro turn
  have steady : (m.station id n).Steady := orderly.steady id
  have hub : (turn.result m).hub = (m.doing id n (.reply d payload isLast)).hub := hub_work found _
  have same : ∀ outcome, (m.perform id (Node.reply d payload isLast)).2 = some outcome →
      turn.attempt? id topic m = some ⟨n.answer d payload isLast topic, outcome⟩ := by
    intro outcome comes
    have own : turn.attempt? id topic m = _ := if_pos ⟨rfl, wanted⟩
    rw [own, found, comes]
    rfl
  cases up : (m.station id n).isConnected with
  | true =>
    have run := reply_connected steady up wanted payload isLast
    exact ⟨_, same (.ok ()) (perform_ok found run), rfl,
      .inl ⟨rfl, hub.trans (congrArg Station.hub (after_ok run))⟩⟩
  | false =>
    have run := reply_lost steady up wanted payload isLast
    exact ⟨_, same (.error .notConnected) (perform_error found run), rfl,
      .inr ⟨rfl, hub.trans (congrArg Station.hub (after_error run))⟩⟩

/-- Whether the next number of a node's answers on a topic is a given one. -/
def Counts (id topic : String) (count : Nat) (m : Mesh) : Prop :=
  ∀ n, m.nodes.get? id = some n → (n.replySequences.get? topic).getD 0 = .ofNat count

/-- The next number after a call that answers. -/
theorem counts_advanced {count : Nat} (number : (n.replySequences.get? topic).getD 0 = .ofNat count)
    (isLast : Bool) :
    ((n.advanced topic isLast).replySequences.get? topic).getD 0 =
      .ofNat (if isLast then 0 else count + 1) := by
  unfold advanced
  rw [number]
  cases isLast with
  | true =>
    show ((KeyMap.erase ..).get? topic).getD 0 = _
    rw [KeyMap.get?_erase, if_pos rfl]
    rfl
  | false =>
    show ((KeyMap.insert ..).get? topic).getD 0 = _
    rw [KeyMap.get?_insert, if_pos rfl, if_neg Bool.false_ne_true, UInt32.ofNat_add]
    rfl

/-- A job of the node: the next number counts it if it answers on the topic. -/
theorem counts_doing (orderly : m.Orderly) (counts : Counts id topic (taken past) m)
    (found : m.nodes.get? id = some n) {job : Job} (stays : job ≠ .call .disconnect) :
    (((m.doing id n job).node.replySequences.get? topic).getD 0 : UInt32) =
      .ofNat (taken (past ++ ((Turn.work id job).attempt? id topic m).toList)) := by
  have steady : (m.station id n).Steady := orderly.steady id
  have sequences : (m.doing id n job).node.replySequences = (job.prepare n).replySequences :=
    replySequences_job steady stays
  rw [sequences]
  -- what an answer took stays taken, whether it could be published or not
  by_cases answers : ∃ d payload isLast, job = .reply d payload isLast ∧ d.replyTopic = some topic
  · obtain ⟨d, payload, isLast, rfl, wanted⟩ := answers
    obtain ⟨a, is, message, -⟩ := attempt?_reply orderly found wanted payload isLast
    have last : a.isLast = isLast := by
      unfold Attempt.isLast
      rw [message]
      rfl
    rw [is, Option.toList_some, taken_concat, last, Job.prepare_reply, wanted]
    exact counts_advanced (counts n found) isLast
  · have none_there : (Turn.work id job).attempt? id topic m = none := by
      refine Option.eq_none_iff_forall_ne_some.2 fun a there => answers ?_
      obtain ⟨d, payload, isLast, -, is, wanted, -⟩ := attempt?_eq_some there
      cases is
      exact ⟨d, payload, isLast, rfl, wanted⟩
    have other : ∀ d payload isLast, job = .reply d payload isLast → d.replyTopic ≠ some topic :=
      fun d payload isLast is wanted => answers ⟨d, payload, isLast, is, wanted⟩
    rw [none_there, Option.toList_none, List.append_nil, Job.replySequences_prepare other]
    exact counts n found

/-- **A turn**: the next number counts the node's calls, whatever comes of them. -/
theorem counts_turn (orderly : m.Orderly) (counts : Counts id topic (taken past) m)
    (stays : turn ≠ .work id (.call .disconnect)) :
    Counts id topic (taken (past ++ (turn.attempt? id topic m).toList)) (turn.result m) := by
  intro n' found'
  cases turn with
  | work who job =>
    cases working : m.nodes.get? who with
    | none =>
      rw [work_of_none working] at found'
      rw [attempt?_eq_none fun same => same ▸ working, Option.toList_none, List.append_nil]
      exact counts n' found'
    | some n =>
      rw [get?_work working] at found'
      split at found'
      · next same =>
        subst same
        cases found'
        exact counts_doing orderly counts working fun leaves => stays (leaves ▸ rfl)
      · next other =>
        rw [attempt?_eq_none fun same => absurd same other, Option.toList_none, List.append_nil]
        exact counts n' found'
  | hand inbox =>
    rw [show (Turn.hand inbox).attempt? id topic m = none from rfl, Option.toList_none,
      List.append_nil]
    rcases hand_cases m inbox with same | ⟨hub, client, frame, -, result⟩
    · rw [same] at found'
      exact counts n' found'
    · rw [result] at found'
      obtain ⟨n, there, rfl⟩ := node_of_hand found'
      split
      · rw [(n.onFrame_numbers frame).2]
        exact counts n there
      · exact counts n there
  | weather outage =>
    rw [show (Turn.weather outage).attempt? id topic m = none from rfl, Option.toList_none,
      List.append_nil]
    exact counts n' found'

/-- The number that a call takes is the next one. -/
theorem number_of_attempt (orderly : m.Orderly) (counts : Counts id topic (taken past) m)
    (there : turn.attempt? id topic m = some a) : a.number = .ofNat (taken past) := by
  obtain ⟨d, payload, isLast, n, rfl, wanted, found⟩ := attempt?_eq_some there
  obtain ⟨a', is, message, -⟩ := attempt?_reply orderly found wanted payload isLast
  cases there.symm.trans is
  unfold Attempt.number
  rw [message]
  exact counts n found

/-- **Some turns**: every call takes the number of the calls before it. -/
theorem numbered_play (orderly : m.Orderly) (counts : Counts id topic (taken past) m)
    (numbered : Numbered past) (steady : ∀ turn ∈ turns, turn.Steady)
    (stays : ∀ turn ∈ turns, turn ≠ .work id (.call .disconnect)) :
    Numbered (past ++ attempts id topic m turns) := by
  -- the calls so far grow with the mesh: the next number is always their count
  induction turns generalizing m past with
  | nil => exact (List.append_nil past).symm ▸ numbered
  | cons turn rest ih =>
    have next := counts_turn orderly counts (stays turn List.mem_cons_self)
    have numbered' : Numbered (past ++ (turn.attempt? id topic m).toList) := by
      cases there : turn.attempt? id topic m with
      | none => exact (List.append_nil past).symm ▸ numbered
      | some a => exact numbered_concat numbered (number_of_attempt orderly counts there)
    rw [attempts, ← List.append_assoc]
    exact ih (orderly_turn orderly (steady turn List.mem_cons_self)) next numbered'
      (fun later there => steady later (List.mem_cons_of_mem turn there))
      fun later there => stays later (List.mem_cons_of_mem turn there)

end Calls

/-- **How the answers of a node on a topic are numbered** in some turns. -/
structure AnswersNumbered (id topic : String) (m : Mesh) (turns : List Turn) : Prop where
  /-- An answer is published if its call succeeds, and a call fails for want of a line. -/
  told : ∀ before turn after a, turns = before ++ turn :: after →
    turn.attempt? id topic (play m before) = some a →
    a.Tells (play m before) (turn.result (play m before))
  /-- A number counts calls, whether they failed or not. -/
  counted : ∀ past a later, attempts id topic m turns = past ++ a :: later →
    a.number.toNat = taken past
  /-- There is no gap if and only if all failures before an answer are made up for. -/
  gapless : Consecutive (attempts id topic m turns) ↔
    ∀ past a later, current (attempts id topic m turns) = past ++ a :: later →
      a.succeeded = true → MadeUp past

/-- **The answers of a node that stays, whatever becomes of its line, are numbered by its
calls**, from any state in which the topic has no number yet: after the node has been
made, has left, or was to give the last answer of a series. -/
theorem numbered_by_calls {m : Mesh} {id topic : String} {turns : List Turn} (orderly : m.Orderly)
    (fresh : ∀ n, m.nodes.get? id = some n → n.replySequences.get? topic = none)
    (steady : ∀ turn ∈ turns, turn.Steady)
    (stays : ∀ turn ∈ turns, turn ≠ .work id (.call .disconnect))
    (short : (attempts id topic m turns).length < UInt32.size) :
    AnswersNumbered id topic m turns := by
  have counts : Counts id topic (taken []) m := fun n found => by
    rw [fresh n found]
    rfl
  have none_yet : Numbered [] := fun past a later none_there => by simp at none_there
  have numbered : Numbered (attempts id topic m turns) :=
    numbered_play orderly counts none_yet steady stays
  refine ⟨fun before turn later a split there => ?_,
    fun past a later split => numbered.toNat short split, consecutive_iff numbered short⟩
  have orderly' : (play m before).Orderly :=
    orderly_play orderly fun turn there => steady turn (split ▸ List.mem_append_left _ there)
  obtain ⟨d, payload, isLast, n, rfl, wanted, found⟩ := attempt?_eq_some there
  obtain ⟨a', is, -, tells⟩ := attempt?_reply orderly' found wanted payload isLast
  cases there.symm.trans is
  exact tells

/-- The first question of a node, as it is handed to the other one. -/
def firstQuestion : Delivery :=
  .ofMessage (question "q" [1] .atMostOnce (replyTopic "q" "a" 0) (some "one"))

/-- Two nodes join, one of them serves a topic, and the other one's question is handed to
it. -/
def asking : List Turn :=
  [.work "a" (.call .connect), .work "b" (.call .connect),
    .work "b" (.call (.subscribe "q" ⟨"serve", none⟩ (.only .broker) .atMostOnce)),
    .work "a" (.request "q" [1] .atMostOnce (some "one") "c"), .hand 1, .hand 1]

/-- An answer of the node that serves. -/
def answering (isLast : Bool) : Turn :=
  .work "b" (.reply firstQuestion [9] isLast)

/-- The line is lost before the first answer, and two answers fail, of which one was to be
the last. -/
def lostAtFirst : List Turn :=
  asking ++ [.work "b" (.call .abort), answering false, answering true,
    .work "b" (.call .connect), answering false]

/-- The line is lost after the first answer, and the second one fails before it is
repeated. -/
def lostMeanwhile : List Turn :=
  asking ++ [answering false, .work "b" (.call .abort), answering false,
    .work "b" (.call .connect), answering false]

/-- A last answer that failed makes up for the failures before it. -/
theorem numbered_lostAtFirst :
    let calls := attempts "b" (replyTopic "q" "a" 0) (new pair 0 7000) lostAtFirst
    AnswersNumbered "b" (replyTopic "q" "a" 0) (new pair 0 7000) lostAtFirst ∧
      calls.map (fun a => (a.succeeded, a.isLast, a.number)) =
        [(false, false, 0), (false, true, 1), (true, false, 0)] := by
  intro calls
  have steady : ∀ turn ∈ lostAtFirst, turn.Steady := by
    simp [lostAtFirst, asking, answering, Turn.Steady]
  have stays : ∀ turn ∈ lostAtFirst, turn ≠ .work "b" (.call .disconnect) := by
    simp [lostAtFirst, asking, answering]
  refine ⟨numbered_by_calls (orderly_new pair 0 7000) (fun n found => ?_) steady stays
    (by decide +kernel), by decide +kernel⟩
  obtain ⟨c, -, -, rfl⟩ := node_of_new found
  rfl

/-- Whether a node answers only what has been handed to its callbacks. -/
def heeds (id : String) : Mesh → List Turn → Bool
  | _, [] => true
  | m, turn :: rest =>
    (match turn with
      | .work who (.reply d _ _) =>
        who != id || (m.nodes.get? id).any fun n => n.invoked.any fun e => e.2 = d
      | _ => true) &&
    heeds id (turn.result m) rest

/-- An answer that failed leaves a gap: the first answer has number 0, and the next one
that is given has number 2. -/
theorem not_always_consecutive :
    ¬∀ (configs : List NodeConfig) (now : Int64) (firstPort : UInt16) (id topic : String)
      (turns : List Turn), (∀ turn ∈ turns, turn.Steady) →
      (∀ turn ∈ turns, turn ≠ .work id (.call .disconnect)) →
      heeds id (new configs now firstPort) turns = true →
      (attempts id topic (new configs now firstPort) turns).length < UInt32.size →
      Consecutive (attempts id topic (new configs now firstPort) turns) := by
  intro always
  let calls := attempts "b" (replyTopic "q" "a" 0) (new pair 0 7000) lostMeanwhile
  have consecutive : Consecutive calls := always pair 0 7000 "b" (replyTopic "q" "a" 0) lostMeanwhile
    (by simp [lostMeanwhile, asking, answering, Turn.Steady])
    (by simp [lostMeanwhile, asking, answering]) (by decide +kernel) (by decide +kernel)
  have numbers : (given calls).map (fun a => a.number.toNat) = [0, 2] := by decide +kernel
  have count : (given calls).length = 2 := by decide +kernel
  unfold Consecutive at consecutive
  rw [numbers, count] at consecutive
  revert consecutive
  decide

end Mesh

end TopicMesh
