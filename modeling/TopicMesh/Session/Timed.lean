import TopicMesh.Session.Basic

/-!
# Sessions and their clock

A session has to be ready before a **deadline**.  `advance` lets time pass and
wakes the session when the deadline is reached.  `waitReady` waits for readiness
for a while; if the deadline comes first, or at the same moment, the wait sees the
session closed.
-/

namespace TopicMesh

/-- A session, the time that has passed since it began, and the time by which it
has to be ready. -/
structure TimedSession (ω : Type) where
  session : Session ω
  elapsed : Nat
  deadline : Nat

namespace TimedSession

variable {ω : Type}

/-- Wakes the session if its time is up. -/
def check (env : Surroundings ω) (t : TimedSession ω) : TimedSession ω :=
  if t.deadline ≤ t.elapsed then { t with session := t.session.react env .deadline } else t

/-- Gives a session its clock. -/
def start (env : Surroundings ω) (limits : SessionLimits) (s : Session ω) : TimedSession ω :=
  check env ⟨s, 0, limits.handshakeTimeout⟩

/-- Wakes the session. -/
def react (env : Surroundings ω) (t : TimedSession ω) (stimulus : Session.Stimulus) :
    TimedSession ω :=
  { t with session := t.session.react env stimulus }

/-- Lets milliseconds pass. -/
def advance (env : Surroundings ω) (t : TimedSession ω) (ms : Nat) : TimedSession ω :=
  check env { t with elapsed := t.elapsed + ms }

/-- Waits for readiness for some milliseconds. -/
def waitReady (env : Surroundings ω) (t : TimedSession ω) (ms : Nat) :
    TimedSession ω × Except Error Unit :=
  match Session.waitOutcome? t.session.published with
  | some outcome => (t, outcome)
  | none =>
    let t := t.advance env ms
    (t, (Session.waitOutcome? t.session.published).getD (.error (.handshakeTimeout ms)))

end TimedSession

end TopicMesh
