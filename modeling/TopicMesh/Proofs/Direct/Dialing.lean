import TopicMesh.Direct.Peer
import TopicMesh.Proofs.Text.Reading

/-!
# What an answer names is what is dialed

The peer that answers tells the other one where it listens by a candidate: one line of
words, of which the other takes the fifth for the host and the sixth for the port.  The
line is written and read by place, and nothing else in it says where the host begins or
ends.  So the candidate leads to the place where the peer listens **just if the host is
one word**, of whatever other characters (`answer_leads_back_iff`).
-/

namespace TopicMesh.DirectPeer

open Candidate Text

variable {p q : DirectPeer} {port : UInt16}

/-- The answer of a responder that has an offer and can listen on a port. -/
theorem createAnswer_ok (answers : p.role = .responder ∧ p.remote.isSome = true) :
    p.createAnswer (.ok port) = .ok (p.description "passive",
      { p with ports := p.ports ++ [port] }.report (.localCandidate (p.candidate port))) :=
  if_pos answers

/-- What an initiator does that has nowhere to dial yet. -/
theorem applyCandidate_idle (dials : q.role = .initiator ∧ q.dialing = false) (c : Candidate) :
    q.applyCandidate c =
      match endpointOf c.line with
      | .ok place => .ok { q with dialing := true, target := some place }
      | .error fault => .error fault.toError := by
  obtain ⟨initiator, idle⟩ := dials
  refine if_neg ?_
  rw [initiator, idle]
  decide

/-- An initiator dials a place just if the candidate names it. -/
theorem applyCandidate_eq_ok_iff (dials : q.role = .initiator ∧ q.dialing = false)
    {c : Candidate} {place : String × UInt16} :
    q.applyCandidate c = .ok { q with dialing := true, target := some place } ↔
      endpointOf c.line = .ok place := by
  rw [applyCandidate_idle dials]
  cases endpointOf c.line with
  | error fault => exact ⟨nofun, nofun⟩
  | ok named => simp

/-- **Whether a candidate leads to a place**: the place can be read off its line, and it
is what every peer dials that is given the candidate and has nowhere to dial yet. -/
structure LeadsTo (c : Candidate) (place : String × UInt16) : Prop where
  read : endpointOf c.line = .ok place
  dialed : ∀ q : DirectPeer, q.role = .initiator ∧ q.dialing = false →
    q.applyCandidate c = .ok { q with dialing := true, target := some place }

theorem leadsTo_iff {c : Candidate} {place : String × UInt16} :
    LeadsTo c place ↔ endpointOf c.line = .ok place :=
  ⟨LeadsTo.read, fun read => ⟨read, fun _ dials => (applyCandidate_eq_ok_iff dials).2 read⟩⟩

/-- **The candidate of an answer leads back to the peer that answers, just if its host is
one word.** -/
theorem answer_leads_back_iff (answers : p.role = .responder ∧ p.remote.isSome = true)
    (port : UInt16) :
    ∃ c answering, p.createAnswer (.ok port) = .ok (p.description "passive", answering) ∧
      answering.events = p.events ++ [.localCandidate c] ∧
      (LeadsTo c (p.host, port) ↔ IsWord p.host) :=
  ⟨p.candidate port, _, createAnswer_ok answers, rfl,
    leadsTo_iff.trans endpointOf_hostLine_iff⟩

/-- A peer that answers, at a host with the words of a candidate in it. -/
def oddlyNamed : DirectPeer :=
  { new .responder "s" "typ:host:+7\u200bé" with remote := some "v=0" }

theorem answer_leads_back_oddlyNamed :
    (oddlyNamed.role = .responder ∧ oddlyNamed.remote.isSome = true) ∧
      IsWord oddlyNamed.host ∧
      ∃ c answering, oddlyNamed.createAnswer (.ok 65535) =
          .ok (oddlyNamed.description "passive", answering) ∧
        answering.events = oddlyNamed.events ++ [.localCandidate c] ∧
        LeadsTo c (oddlyNamed.host, 65535) := by
  have answers : oddlyNamed.role = .responder ∧ oddlyNamed.remote.isSome = true := by decide
  have word : IsWord oddlyNamed.host := by
    have no_blank : (oddlyNamed.host.toList.all fun c => !isBlank c) = true := by decide
    exact ⟨by decide, fun c here => by simpa using List.all_eq_true.1 no_blank c here⟩
  obtain ⟨c, answering, made, told, leads⟩ := answer_leads_back_iff answers 65535
  exact ⟨answers, word, c, answering, made, told, leads.2 word⟩

end TopicMesh.DirectPeer
