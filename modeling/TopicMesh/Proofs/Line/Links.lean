import Mathlib.Data.List.Induction
import Mathlib.Data.List.Nodup
import TopicMesh.Line.Remote

/-!
# Which link stands

The owner of a remote line connects it, takes leave and gives it frames, while the
readers and the writers of its links, old ones too, end in any order.  Each of these
is an `Event`, for each takes hold of the line at one moment: a call to connect when it
installs the link that it has dialed, and a reader when it finds out whether its link is
the installed one.

A link **stands** after some events if one of them installed it, and since then its owner
has not taken leave and its own reader has not ended (`Stands`).  What an event does to
the installed link is said once (`step_cases`).  From that the number in the line is the
number of the link that stands (`installed?_after`), so the ends of other readers leave no
trace, and the owner is told of a loss just when the reader of a standing link ends
(`wellInformed`).
-/

namespace TopicMesh.RemoteLine

/-- What happens to a line. -/
inductive Event
  /-- The owner wants the line connected; the attempt to reach the broker comes to `dialed`. -/
  | connect (dialed : Except Error Unit)
  | disconnect
  | send (frame : ClientFrame)
  /-- The reader of a link ends. -/
  | readerEnded (number : Nat)
  /-- The writer of a link ends. -/
  | writerEnded (number : Nat)

/-- The line after an event, and the link of whose loss the owner is told.  A call that
fails leaves the line as it is. -/
def step (line : RemoteLine) : Event → RemoteLine × Option Nat
  | .connect dialed => ((line.connect dialed).toOption.getD line, none)
  | .disconnect => (line.disconnect, none)
  | .send frame => ((line.send frame).toOption.getD line, none)
  | .readerEnded number =>
    let (line, lost) := line.readerEnded number
    (line, if lost then some number else none)
  | .writerEnded number => (line.writerEnded number, none)

/-- A client's line after some events, and the links of whose loss its owner was told,
oldest first. -/
def run (client : String) (events : List Event) : RemoteLine × List Nat :=
  events.foldl (fun s e => ((s.1.step e).1, s.2 ++ (s.1.step e).2.toList)) (new client, [])

/-- A client's line after some events. -/
def after (client : String) (events : List Event) : RemoteLine :=
  (run client events).1

/-- The links of whose loss the owner was told, oldest first. -/
def told (client : String) (events : List Event) : List Nat :=
  (run client events).2

/-- **Whether a link stands after some events**: one of them installed it, and since then
the owner has not taken leave and the link's reader has not ended. -/
def Stands (client : String) (events : List Event) (number : Nat) : Prop :=
  ∃ earlier later, events = earlier ++ .connect (.ok ()) :: later ∧
    (after client earlier).isConnected = false ∧ (after client earlier).links + 1 = number ∧
    .disconnect ∉ later ∧ .readerEnded number ∉ later

/-- The number of the installed link. -/
def installed? (line : RemoteLine) : Option Nat :=
  line.link.map RemoteLink.number

theorem isConnected_eq (line : RemoteLine) : line.isConnected = line.installed?.isSome :=
  Option.isSome_map.symm

theorem isConnected_iff {line : RemoteLine} :
    line.isConnected = true ↔ ∃ number, line.installed? = some number := by
  rw [isConnected_eq, Option.isSome_iff_exists]

theorem not_isConnected_iff {line : RemoteLine} :
    line.isConnected = false ↔ line.installed? = none := by
  rw [isConnected_eq, Option.isSome_eq_false_iff, Option.isNone_iff_eq_none]

/-! ## One event -/

/-- What an event does to the installed link, and what it tells. -/
inductive Turn (line : RemoteLine) (e : Event) (line' : RemoteLine) (tells : Option Nat) : Prop
  /-- A link is installed, with the next number. -/
  | installed (call : e = .connect (.ok ())) (free : line.installed? = none)
      (now : line'.installed? = some (line.links + 1)) (links : line'.links = line.links + 1)
      (silent : tells = none)
  /-- The owner takes leave. -/
  | left (call : e = .disconnect) (now : line'.installed? = none)
      (links : line'.links = line.links) (silent : tells = none)
  /-- The reader of the installed link ends. -/
  | lost (number : Nat) (ended : e = .readerEnded number)
      (before : line.installed? = some number) (now : line'.installed? = none)
      (links : line'.links = line.links) (tells : tells = some number)
  /-- Everything else leaves the link where it is. -/
  | quiet (same : line'.installed? = line.installed?) (links : line'.links = line.links)
      (silent : tells = none) (stays : e ≠ .disconnect)
      (other : ∀ n, line.installed? = some n → e ≠ .readerEnded n)
      (held : line.installed? = none → e ≠ .connect (.ok ()))

/-- A frame is given to a link, or there is none to write to. -/
theorem send_cases (line : RemoteLine) (f : ClientFrame) :
    (∃ number, line.send f = .ok { line with sent := line.sent ++ [(number, f)] }) ∨
      line.send f = .error .notConnected := by
  unfold send
  split
  · next number _ => exact .inl ⟨number, rfl⟩
  · exact .inr rfl

/-- The reader of the installed link ends. -/
theorem step_readerEnded {line : RemoteLine} {number : Nat}
    (installed : line.installed? = some number) :
    line.step (.readerEnded number) = ({ line with link := none }, some number) := by
  have ended : line.readerEnded number = ({ line with link := none }, true) := if_pos installed
  rw [step, ended]
  rfl

/-- The reader of another link ends. -/
theorem step_readerEnded_of_ne {line : RemoteLine} {number : Nat}
    (other : line.installed? ≠ some number) : line.step (.readerEnded number) = (line, none) := by
  have ended : line.readerEnded number = (line, false) := if_neg other
  rw [step, ended]
  rfl

theorem step_cases (line : RemoteLine) (e : Event) :
    Turn line e (line.step e).1 (line.step e).2 := by
  cases e with
  | connect dialed =>
    by_cases connected : line.isConnected = true
    · have same : line.connect dialed = .ok line := by rw [connect, if_pos connected]
      obtain ⟨number, installed⟩ := isConnected_iff.1 connected
      rw [step, same]
      refine .quiet rfl rfl rfl nofun nofun fun free => ?_
      rw [free] at installed
      cases installed
    · have free : line.installed? = none := not_isConnected_iff.1 (by simpa using connected)
      rw [step, connect, if_neg connected]
      cases dialed with
      | ok _ => exact .installed rfl free rfl rfl rfl
      | error _ => exact .quiet rfl rfl rfl nofun nofun fun _ => nofun
  | disconnect =>
    rw [step, disconnect]
    rcases line.send_cases .disconnect with ⟨_, sent⟩ | failed
    · rw [sent]
      exact .left rfl rfl rfl rfl
    · rw [failed]
      exact .left rfl rfl rfl rfl
  | send frame =>
    rw [step]
    rcases line.send_cases frame with ⟨_, sent⟩ | failed
    · rw [sent]
      exact .quiet rfl rfl rfl nofun nofun fun _ => nofun
    · rw [failed]
      exact .quiet rfl rfl rfl nofun nofun fun _ => nofun
  | readerEnded number =>
    by_cases installed : line.installed? = some number
    · rw [step_readerEnded installed]
      exact .lost number rfl installed rfl rfl rfl
    · rw [step_readerEnded_of_ne installed]
      refine .quiet rfl rfl rfl nofun (fun n now ended => ?_) fun _ => nofun
      cases ended
      exact installed now
  | writerEnded number =>
    rw [step, writerEnded]
    refine .quiet ?_ rfl rfl nofun nofun fun _ => nofun
    -- a link that cannot be written to keeps its number
    unfold installed?
    cases line.link with
    | none => rfl
    | some l =>
      dsimp only [Option.map_some]
      split <;> rfl

/-- A line that has no link gets one from a connect that succeeds, and from nothing else. -/
theorem installed?_step_of_none {line : RemoteLine} {e : Event} (free : line.installed? = none)
    (other : e ≠ .connect (.ok ())) : (line.step e).1.installed? = none := by
  cases line.step_cases e with
  | installed call => exact absurd call other
  | left _ now => exact now
  | lost _ _ _ now => exact now
  | quiet same => exact same.trans free

/-! ## A run -/

variable (client : String)

theorem after_concat (events : List Event) (e : Event) :
    after client (events ++ [e]) = ((after client events).step e).1 := by
  unfold after run
  rw [List.foldl_concat]

theorem told_concat (events : List Event) (e : Event) :
    told client (events ++ [e]) =
      told client events ++ ((after client events).step e).2.toList := by
  unfold told after run
  rw [List.foldl_concat]

/-- A link that stands after one more event stood before, or was installed just now. -/
theorem stands_concat_iff (events : List Event) (e : Event) (number : Nat) :
    Stands client (events ++ [e]) number ↔
      Stands client events number ∧ e ≠ .disconnect ∧ e ≠ .readerEnded number ∨
        e = .connect (.ok ()) ∧ (after client events).isConnected = false ∧
          (after client events).links + 1 = number := by
  constructor
  · rintro ⟨earlier, later, split, free, next, stays, reads⟩
    rcases List.eq_nil_or_concat later with rfl | ⟨later, last, rfl⟩
    · obtain ⟨rfl, call⟩ := List.append_inj' split rfl
      exact .inr ⟨List.head_eq_of_cons_eq call, free, next⟩
    · rw [List.concat_eq_append] at split stays reads
      rw [← List.cons_append, ← List.append_assoc] at split
      obtain ⟨rfl, same⟩ := List.append_inj' split rfl
      cases same
      simp only [List.mem_append, List.mem_singleton, not_or] at stays reads
      exact .inl ⟨⟨earlier, later, rfl, free, next, stays.1, reads.1⟩, Ne.symm stays.2,
        Ne.symm reads.2⟩
  · rintro (⟨⟨earlier, later, rfl, free, next, stays, reads⟩, stay, read⟩ | ⟨rfl, free, next⟩)
    · refine ⟨earlier, later ++ [e], by simp, free, next, ?_, ?_⟩
      · simpa [stays] using Ne.symm stay
      · simpa [reads] using Ne.symm read
    · exact ⟨events, [], rfl, free, next, List.not_mem_nil, List.not_mem_nil⟩

/-- **The installed link is the one that stands.** -/
theorem installed?_after (events : List Event) (number : Nat) :
    (after client events).installed? = some number ↔ Stands client events number := by
  induction events using List.reverseRecOn generalizing number with
  | nil =>
    refine ⟨nofun, ?_⟩
    rintro ⟨earlier, later, split, -⟩
    simp at split
  | append_singleton events e ih =>
    rw [after_concat, stands_concat_iff, ← ih, not_isConnected_iff]
    cases (after client events).step_cases e with
    | installed call free now =>
      rw [now]
      simp [call, free]
    | left call now =>
      rw [now]
      simp [call]
    | lost _ ended before now =>
      rw [now]
      simp +contextual [ended, before]
    | quiet same _ _ stays other held =>
      rw [same]
      constructor
      · intro installed
        exact .inl ⟨installed, stays, other number installed⟩
      · rintro (⟨installed, -⟩ | ⟨call, free, -⟩)
        · exact installed
        · exact absurd call (held free)

/-- What the numbers of the links say: the installed link is the newest one, and a link
of whose loss the owner was told was there, and is there no more. -/
structure Numbered (line : RemoteLine) (told : List Nat) : Prop where
  newest : ∀ number, line.installed? = some number → number = line.links
  past : ∀ number ∈ told, number ≤ line.links ∧ line.installed? ≠ some number
  once : told.Nodup

theorem numbered_step {line : RemoteLine} {told : List Nat} (numbered : line.Numbered told)
    (e : Event) : (line.step e).1.Numbered (told ++ (line.step e).2.toList) := by
  obtain ⟨newest, past, once⟩ := numbered
  cases line.step_cases e with
  | installed _ _ now links silent =>
    rw [silent, Option.toList_none, List.append_nil]
    refine ⟨fun n installed => ?_, fun n before => ?_, once⟩
    · rw [now] at installed
      rw [links, Option.some.inj installed]
    · -- the new number is above all that were told
      have le := (past n before).1
      rw [now, links]
      exact ⟨by omega, fun same => by cases same; omega⟩
  | left _ now links silent =>
    rw [silent, Option.toList_none, List.append_nil]
    refine ⟨by rw [now]; nofun, fun n before => ?_, once⟩
    rw [now, links]
    exact ⟨(past n before).1, nofun⟩
  | lost number _ before now links tells =>
    rw [tells, Option.toList_some]
    have fresh : number ∉ told := fun told_before => (past number told_before).2 before
    refine ⟨by rw [now]; nofun, fun n there => ?_, ?_⟩
    · rw [now, links]
      refine ⟨?_, nofun⟩
      rcases List.mem_append.1 there with there | there
      · exact (past n there).1
      · exact Nat.le_of_eq ((List.mem_singleton.1 there).trans (newest number before))
    · exact List.nodup_append_comm.1 (List.nodup_cons.2 ⟨fresh, once⟩)
  | quiet same links silent =>
    rw [silent, Option.toList_none, List.append_nil]
    exact ⟨by rwa [same, links], by rwa [same, links], once⟩

theorem numbered_after (events : List Event) :
    (after client events).Numbered (told client events) := by
  induction events using List.reverseRecOn with
  | nil => exact ⟨nofun, nofun, List.nodup_nil⟩
  | append_singleton events e ih =>
    rw [after_concat, told_concat]
    exact numbered_step ih e

/-- **What the owner of a line knows of its links** after some events, and learns from
the next one. -/
structure WellInformed (events : List Event) : Prop where
  /-- The line is connected just while a link stands. -/
  connected : (after client events).isConnected = true ↔ ∃ number, Stands client events number
  /-- That is the newest link. -/
  newest : ∀ number, Stands client events number → number = (after client events).links
  /-- The owner is told of the loss of a link just when its reader ends while it stands. -/
  tells : ∀ e number, ((after client events).step e).2 = some number ↔
    e = .readerEnded number ∧ Stands client events number
  /-- The end of any other reader changes nothing. -/
  others : ∀ number, ¬Stands client events number →
    (after client events).step (.readerEnded number) = (after client events, none)
  /-- Once the reader of the link that stands has ended, the line is not connected until
  a call to connect succeeds. -/
  lost : ∀ number, Stands client events number → ∀ later, .connect (.ok ()) ∉ later →
    (after client (events ++ .readerEnded number :: later)).isConnected = false
  /-- The loss of a link is told once. -/
  once : (told client events).Nodup

/-- A line that lost its link stays so while no call to connect succeeds. -/
theorem isConnected_after_loss {events : List Event} {number : Nat}
    (stands : Stands client events number) {later : List Event}
    (none_connects : .connect (.ok ()) ∉ later) :
    (after client (events ++ .readerEnded number :: later)).isConnected = false := by
  rw [not_isConnected_iff]
  induction later using List.reverseRecOn with
  | nil =>
    rw [after_concat, step_readerEnded ((installed?_after client events number).2 stands)]
    rfl
  | append_singleton later e ih =>
    simp only [List.mem_append, List.mem_singleton, not_or] at none_connects
    rw [← List.cons_append, ← List.append_assoc, after_concat]
    exact installed?_step_of_none (ih none_connects.1) (Ne.symm none_connects.2)

/-- **The owner of a line is told of the loss of each link once, and just of those that
were lost**, however the calls of the owner and the ends of the readers interleave. -/
theorem wellInformed (events : List Event) : WellInformed client events where
  connected := by
    simp only [isConnected_iff, installed?_after]
  newest number stands :=
    (numbered_after client events).newest number ((installed?_after client events number).2 stands)
  tells e number := by
    rw [← installed?_after]
    cases (after client events).step_cases e with
    | installed call _ _ _ silent =>
      rw [silent]
      simp [call]
    | left call _ _ silent =>
      rw [silent]
      simp [call]
    | lost n ended before _ _ tells =>
      rw [tells, ended, before]
      simp
    | quiet _ _ silent _ other _ =>
      rw [silent]
      exact ⟨nofun, fun ⟨ended, installed⟩ => absurd ended (other number installed)⟩
  others number fallen := by
    rw [← installed?_after] at fallen
    exact step_readerEnded_of_ne fallen
  lost number stands later none_connects := isConnected_after_loss client stands none_connects
  once := (numbered_after client events).once

/-- A link is lost and replaced; then its reader is said to end once more, and the owner
takes leave before the new link's reader ends. -/
example :
    let events : List Event := [.connect (.ok ()), .readerEnded 1, .connect (.ok ()),
      .readerEnded 1, .disconnect, .readerEnded 2]
    told "n" events = [1] ∧ (after "n" (events.take 4)).isConnected = true := by
  decide

end TopicMesh.RemoteLine
