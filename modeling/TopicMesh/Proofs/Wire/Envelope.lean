import TopicMesh.Wire.Envelope
import TopicMesh.Proofs.Text.Utf8

/-!
# Envelopes are opened as they were sealed

What is opened is what was sealed, and nothing else can be opened
(`openEnvelope_eq_ok_iff`).  The two lengths at the head of an envelope and before its
payload say where it ends, so no envelope begins another (`sealed_unique`): one that is cut
short, or has bytes left over, is refused (`envelopes_reopen`).
-/

namespace TopicMesh.Wire

variable {topic topic' : String} {payload payload' bytes bytes' : Bytes}

/-- The bytes of an envelope, whatever its lengths. -/
def envelopeBytes (topic : String) (payload : Bytes) : Bytes :=
  bigEndian (Utf8.encode topic).length 2 ++ Utf8.encode topic ++ bigEndian payload.length 4 ++ payload

/-- Whether the lengths of a topic and a payload can be written in an envelope. -/
structure Sealable (topic : String) (payload : Bytes) : Prop where
  topic : (Utf8.encode topic).length ≤ 65535
  payload : payload.length ≤ 4294967295

theorem length_envelopeBytes (topic : String) (payload : Bytes) :
    (envelopeBytes topic payload).length = 6 + (Utf8.encode topic).length + payload.length := by
  simp only [envelopeBytes, List.length_append, length_bigEndian]
  omega

theorem sealEnvelope_eq_ok_iff :
    sealEnvelope topic payload = .ok bytes ↔
      Sealable topic payload ∧ bytes = envelopeBytes topic payload := by
  unfold sealEnvelope
  dsimp only
  by_cases long : 65535 < (Utf8.encode topic).length
  · rw [if_pos long]
    exact ⟨nofun, fun ⟨fits, _⟩ => absurd fits.topic (Nat.not_le.2 long)⟩
  by_cases large : 4294967295 < payload.length
  · rw [if_neg long, if_pos large]
    exact ⟨nofun, fun ⟨fits, _⟩ => absurd fits.payload (Nat.not_le.2 large)⟩
  rw [if_neg long, if_neg large]
  constructor
  · intro same
    cases same
    exact ⟨⟨Nat.le_of_not_lt long, Nat.le_of_not_lt large⟩, rfl⟩
  · rintro ⟨-, rfl⟩
    rfl

theorem Sealable.topic_lt (fits : Sealable topic payload) :
    (Utf8.encode topic).length < widthBound 2 :=
  Nat.lt_succ_of_le fits.topic

theorem Sealable.payload_lt (fits : Sealable topic payload) : payload.length < widthBound 4 :=
  Nat.lt_succ_of_le fits.payload

/-- **A sealed envelope is opened.** -/
theorem openEnvelope_envelopeBytes (fits : Sealable topic payload) :
    openEnvelope (envelopeBytes topic payload) = .ok (topic, payload) := by
  unfold openEnvelope envelopeBytes
  simp only [List.append_assoc, takeNumber_bigEndian fits.topic_lt, takeExactly_append,
    Utf8.decode_encode, takeNumber_bigEndian fits.payload_lt]
  exact if_pos trivial

/-- **What can be opened was sealed.** -/
theorem eq_envelopeBytes_of_open (opened : openEnvelope bytes = .ok (topic, payload)) :
    Sealable topic payload ∧ bytes = envelopeBytes topic payload := by
  unfold openEnvelope at opened
  split at opened
  · cases opened
  next topicLength bytes₁ atTopicLength =>
  split at opened
  · cases opened
  next name bytes₂ atName =>
  split at opened
  · cases opened
  next topic' decoded =>
  split at opened
  · cases opened
  next payloadLength payload' atPayloadLength =>
  split at opened
  · next same =>
    cases opened
    subst same
    obtain ⟨rfl, short⟩ := takeNumber_eq_some atTopicLength
    obtain ⟨rfl, rfl⟩ := takeExactly_eq_some_iff.1 atName
    obtain ⟨rfl, small⟩ := takeNumber_eq_some atPayloadLength
    have written := Utf8.encode_of_decode decoded
    subst written
    refine ⟨⟨Nat.le_of_lt_succ short, Nat.le_of_lt_succ small⟩, ?_⟩
    simp only [envelopeBytes, List.append_assoc]
  · cases opened

/-- **Opening undoes sealing, and the other way round.** -/
theorem openEnvelope_eq_ok_iff :
    openEnvelope bytes = .ok (topic, payload) ↔ sealEnvelope topic payload = .ok bytes := by
  rw [sealEnvelope_eq_ok_iff]
  constructor
  · exact eq_envelopeBytes_of_open
  · rintro ⟨fits, rfl⟩
    exact openEnvelope_envelopeBytes fits

/-- Whoever fails to open an envelope says that it cannot be decoded. -/
theorem decode_of_openEnvelope {fault : EnvelopeFault} (failed : openEnvelope bytes = .error fault) :
    ∃ text, fault.toError = .decode text := by
  unfold openEnvelope at failed
  repeat' split at failed
  all_goals cases failed
  all_goals exact ⟨_, rfl⟩

/-- What follows a number of a fixed width is known with the number. -/
theorem bigEndian_append_inj {n n' width : Nat} {rest rest' : Bytes} (small : n < widthBound width)
    (small' : n' < widthBound width) (same : bigEndian n width ++ rest = bigEndian n' width ++ rest') :
    n = n' ∧ rest = rest' := by
  have read := takeNumber_bigEndian small rest
  rw [same, takeNumber_bigEndian small'] at read
  cases read
  exact ⟨rfl, rfl⟩

/-- **No envelope begins another one.** -/
theorem sealed_unique (fits : Sealable topic payload) (fits' : Sealable topic' payload')
    {more : Bytes} (same : envelopeBytes topic payload ++ more = envelopeBytes topic' payload') :
    more = [] := by
  simp only [envelopeBytes, List.append_assoc] at same
  obtain ⟨topicLength, afterLength⟩ := bigEndian_append_inj fits.topic_lt fits'.topic_lt same
  obtain ⟨-, afterTopic⟩ := List.append_inj afterLength topicLength
  obtain ⟨payloadLength, payloads⟩ :=
    bigEndian_append_inj fits.payload_lt fits'.payload_lt afterTopic
  have lengths := congrArg List.length payloads
  rw [List.length_append] at lengths
  exact List.length_eq_zero_iff.1 (by omega)

/-- Bytes that an envelope begins or that begin an envelope are none, unless they are it. -/
theorem openEnvelope_of_prefix (sealed : sealEnvelope topic payload = .ok bytes)
    (near : bytes' <+: bytes ∨ bytes <+: bytes') (other : bytes' ≠ bytes) :
    ∃ fault text, openEnvelope bytes' = .error fault ∧ fault.toError = .decode text := by
  cases opened : openEnvelope bytes' with
  | error fault =>
    obtain ⟨text, reported⟩ := decode_of_openEnvelope opened
    exact ⟨fault, text, rfl, reported⟩
  | ok found =>
    obtain ⟨fits, rfl⟩ := sealEnvelope_eq_ok_iff.1 sealed
    obtain ⟨topic', payload'⟩ := found
    obtain ⟨fits', rfl⟩ := eq_envelopeBytes_of_open opened
    obtain ⟨more, same⟩ | ⟨more, same⟩ := near
    · rw [sealed_unique fits' fits same, List.append_nil] at same
      exact absurd same other
    · rw [sealed_unique fits fits' same, List.append_nil] at same
      exact absurd same.symm other

/-- **Envelopes are opened as they were sealed.**  A topic and a payload have an envelope
just if their lengths can be written, and from it they are read back.  Bytes that can be
opened are the envelope of what is found in them; so an envelope that is cut short, or that
something follows, cannot be opened. -/
theorem envelopes_reopen :
    (∀ topic payload, (∃ bytes, sealEnvelope topic payload = .ok bytes) ↔
      (Utf8.encode topic).length ≤ 65535 ∧ payload.length ≤ 4294967295) ∧
    (∀ topic payload bytes, sealEnvelope topic payload = .ok bytes →
      openEnvelope bytes = .ok (topic, payload)) ∧
    (∀ topic payload bytes, openEnvelope bytes = .ok (topic, payload) →
      sealEnvelope topic payload = .ok bytes) ∧
    ∀ topic payload bytes bytes', sealEnvelope topic payload = .ok bytes →
      bytes' <+: bytes ∨ bytes <+: bytes' → bytes' ≠ bytes →
        ∃ fault text, openEnvelope bytes' = .error fault ∧ fault.toError = .decode text := by
  refine ⟨fun topic payload => ⟨?_, ?_⟩, fun _ _ _ => openEnvelope_eq_ok_iff.2,
    fun _ _ _ => openEnvelope_eq_ok_iff.1, fun _ _ _ _ => openEnvelope_of_prefix⟩
  · rintro ⟨bytes, sealed⟩
    obtain ⟨fits, -⟩ := sealEnvelope_eq_ok_iff.1 sealed
    exact ⟨fits.topic, fits.payload⟩
  · rintro ⟨short, small⟩
    exact ⟨_, sealEnvelope_eq_ok_iff.2 ⟨⟨short, small⟩, rfl⟩⟩

end TopicMesh.Wire
