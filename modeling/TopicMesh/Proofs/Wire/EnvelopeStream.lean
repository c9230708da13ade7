import TopicMesh.Proofs.Wire.Envelope

/-!
# Envelopes across a stream

A stream carries envelopes one after the other, each behind its length (`Carries`).  One
that is not too long is read off the stream and leaves what follows (`readEnvelope_parcel`),
and nothing else is read as an envelope (`readEnvelope_eq_envelope`); so there is one way only
to take a stream apart (`Carries.goes_on`), and what is read is the longest part of it that
consists of envelopes (`stream_read_exactly`).

A sender bounds the topic and the payload of an envelope by what their lengths can be
written in, the reader bounds the envelope as a whole, by less.  What is sent arrives just if
it stays below the reader's bound (`arrives_iff_fits`); of an envelope beyond 2^32 bytes even
the length arrives wrong, and the reader sees a part of it that is no envelope.
-/

namespace TopicMesh.Wire

variable {topic : String} {payload bytes rest : Bytes} {items items' : List (String × Bytes)}

/-- What one send puts on a stream, whatever the lengths. -/
def parcel (topic : String) (payload : Bytes) : Bytes :=
  bigEndian (envelopeBytes topic payload).length 4 ++ envelopeBytes topic payload

theorem onWire_stream_eq_ok_iff :
    onWire .stream topic payload = .ok bytes ↔
      Sealable topic payload ∧ bytes = parcel topic payload := by
  show (((sealEnvelope topic payload).map _).mapError _) = _ ↔ _
  cases sealed : sealEnvelope topic payload with
  | error fault =>
    refine ⟨nofun, fun ⟨fits, _⟩ => ?_⟩
    cases sealed.symm.trans (sealEnvelope_eq_ok_iff.2 ⟨fits, rfl⟩)
  | ok envelope =>
    obtain ⟨fits, rfl⟩ := sealEnvelope_eq_ok_iff.1 sealed
    constructor
    · intro same
      cases same
      exact ⟨fits, rfl⟩
    · rintro ⟨-, rfl⟩
      rfl

/-! ## One envelope -/

/-- **An envelope that is not too long is read off a stream.** -/
theorem readEnvelope_parcel (fits : Sealable topic payload)
    (short : (envelopeBytes topic payload).length ≤ maxFrameLength) (rest : Bytes) :
    readEnvelope (parcel topic payload ++ rest) = .envelope topic payload rest := by
  have written : (envelopeBytes topic payload).length < widthBound 4 :=
    Nat.lt_of_le_of_lt short (by decide)
  unfold readEnvelope parcel
  simp only [List.append_assoc, takeNumber_bigEndian written, if_neg (Nat.not_lt.2 short),
    takeExactly_append, openEnvelope_envelopeBytes fits]

/-- **What is read as an envelope was sealed, and is not too long.** -/
theorem readEnvelope_eq_envelope (read : readEnvelope bytes = .envelope topic payload rest) :
    Sealable topic payload ∧ (envelopeBytes topic payload).length ≤ maxFrameLength ∧
      bytes = parcel topic payload ++ rest := by
  unfold readEnvelope at read
  split at read
  · cases read
  next length bytes' atLength =>
  split at read
  · cases read
  next short =>
  split at read
  · cases read
  next envelope rest' atEnvelope =>
  split at read
  · cases read
  next topic' payload' opened =>
    cases read
    obtain ⟨rfl, -⟩ := takeNumber_eq_some atLength
    obtain ⟨rfl, rfl⟩ := takeExactly_eq_some_iff.1 atEnvelope
    obtain ⟨fits, rfl⟩ := eq_envelopeBytes_of_open opened
    exact ⟨fits, Nat.le_of_not_lt short, (List.append_assoc ..).symm⟩

/-- The stream is over where not even a length is left. -/
theorem readEnvelope_eq_clean_iff : readEnvelope bytes = .finished .clean ↔ bytes.length < 4 := by
  unfold readEnvelope
  cases atLength : takeNumber 4 bytes with
  | none => exact iff_of_true rfl (takeExactly_eq_none_iff.1 (Option.map_eq_none_iff.1 atLength))
  | some length =>
    obtain ⟨same, -⟩ := takeNumber_eq_some atLength
    refine iff_of_false (fun ended => ?_) ?_
    · dsimp only at ended
      repeat' split at ended
      all_goals cases ended
    · rw [same, List.length_append, length_bigEndian]
      omega

/-! ## Envelope after envelope -/

/-- **Envelopes one after the other**, each behind its length and none too long: what they
hold, in order, and the bytes after them. -/
inductive Carries : Bytes → List (String × Bytes) → Bytes → Prop
  | nothing (rest : Bytes) : Carries rest [] rest
  | next {topic : String} {payload envelope between rest : Bytes} {items : List (String × Bytes)}
      (sealed : sealEnvelope topic payload = .ok envelope) (short : envelope.length ≤ 16777216)
      (others : Carries between items rest) :
      Carries (bigEndian envelope.length 4 ++ envelope ++ between) ((topic, payload) :: items) rest

theorem Carries.of_read {between : Bytes}
    (first : readEnvelope bytes = .envelope topic payload between)
    (others : Carries between items rest) : Carries bytes ((topic, payload) :: items) rest := by
  obtain ⟨fits, short, rfl⟩ := readEnvelope_eq_envelope first
  exact .next (sealEnvelope_eq_ok_iff.2 ⟨fits, rfl⟩) short others

/-- Envelopes that are carried are read. -/
theorem readEnvelope_carried {envelope : Bytes} (sealed : sealEnvelope topic payload = .ok envelope)
    (short : envelope.length ≤ 16777216) (between : Bytes) :
    readEnvelope (bigEndian envelope.length 4 ++ envelope ++ between) =
      .envelope topic payload between := by
  obtain ⟨fits, rfl⟩ := sealEnvelope_eq_ok_iff.1 sealed
  exact readEnvelope_parcel fits short between

/-- **What a stream carries before its end goes on with what it carries after any part.** -/
theorem Carries.goes_on {ending : StreamEnd} {rest' : Bytes}
    (part : Carries bytes items' rest') (whole : Carries bytes items rest)
    (ended : readEnvelope rest = .finished ending) :
    ∃ more, items = items' ++ more ∧ Carries rest' more rest := by
  induction part generalizing items with
  | nothing => exact ⟨items, rfl, whole⟩
  | @next topic payload envelope between _ _ sealed short _ ih =>
    have read := readEnvelope_carried sealed short between
    generalize bigEndian envelope.length 4 ++ envelope ++ between = bytes at whole read
    cases whole with
    | nothing => cases read.symm.trans ended
    | next sealed' short' others =>
      rw [readEnvelope_carried sealed' short'] at read
      cases read
      obtain ⟨more, rfl, after⟩ := ih others
      exact ⟨more, rfl, after⟩

theorem Carries.suffix (carries : Carries bytes items rest) : rest <:+ bytes := by
  induction carries with
  | nothing => exact List.suffix_rfl
  | next _ _ _ ih => exact ih.trans (List.suffix_append ..)

/-- Reading goes on until no envelope is left, as each takes some bytes. -/
theorem exists_carries_readStreamUpTo {n : Nat} (enough : bytes.length < n) :
    ∃ rest, Carries bytes (readStreamUpTo n bytes).1 rest ∧
      readEnvelope rest = .finished (readStreamUpTo n bytes).2 := by
  induction n generalizing bytes with
  | zero => exact absurd enough (Nat.not_lt_zero _)
  | succ n ih =>
    rw [readStreamUpTo]
    cases read : readEnvelope bytes with
    | finished ending => exact ⟨bytes, .nothing bytes, read⟩
    | envelope topic payload between =>
      have fewer : between.length < n := by
        obtain ⟨-, -, same⟩ := readEnvelope_eq_envelope read
        rw [same, parcel, List.length_append, List.length_append, length_bigEndian] at enough
        omega
      obtain ⟨rest, others, ended⟩ := ih fewer
      exact ⟨rest, .of_read read others, ended⟩

/-- **What is read off a stream is what it carries**, up to bytes that begin with no
envelope. -/
theorem exists_carries_readStream (bytes : Bytes) :
    ∃ rest, Carries bytes (readStream bytes).1 rest ∧
      readEnvelope rest = .finished (readStream bytes).2 :=
  exists_carries_readStreamUpTo (Nat.lt_succ_self _)

/-- Whoever knows what a stream carries up to its end knows what is read. -/
theorem readStream_eq {ending : StreamEnd} (carries : Carries bytes items rest)
    (ended : readEnvelope rest = .finished ending) : readStream bytes = (items, ending) := by
  obtain ⟨rest', read, ended'⟩ := exists_carries_readStream bytes
  obtain ⟨more, same, between⟩ := carries.goes_on read ended'
  cases between with
  | nothing =>
    rw [List.append_nil] at same
    rw [ended] at ended'
    injection ended' with same_end
    exact Prod.ext same same_end.symm
  | next sealed short => cases (readEnvelope_carried sealed short _).symm.trans ended

/-- **Streams of envelopes are read exactly.**  What is delivered is what the longest part of
the stream carries that consists of envelopes, each complete and none too long: any other
such part delivers less and leaves more.  Reading ends well just if fewer than four bytes
are left then, so that a stream of envelopes only is delivered in full. -/
theorem stream_read_exactly (bytes : Bytes) :
    (∃ rest, Carries bytes (readStream bytes).1 rest ∧
      (∀ items rest', Carries bytes items rest' →
        items <+: (readStream bytes).1 ∧ rest <:+ rest') ∧
      ((readStream bytes).2 = .clean ↔ rest.length < 4)) ∧
    ∀ items, Carries bytes items [] → readStream bytes = (items, .clean) := by
  constructor
  · obtain ⟨rest, carries, ended⟩ := exists_carries_readStream bytes
    refine ⟨rest, carries, fun items rest' part => ?_, ?_⟩
    · obtain ⟨more, same, after⟩ := part.goes_on carries ended
      exact ⟨⟨more, same.symm⟩, after.suffix⟩
    · rw [← readEnvelope_eq_clean_iff, ended]
      exact ⟨congrArg StreamRead.finished, fun same => by injection same⟩
  · intro items carries
    exact readStream_eq carries rfl

/-! ## What a sender accepts -/

/-- **An envelope that is too long is not read**, even if its length is too great for four
bytes. -/
theorem readEnvelope_parcel_of_long (fits : Sealable topic payload)
    (long : maxFrameLength < (envelopeBytes topic payload).length) :
    ∃ ending, readEnvelope (parcel topic payload) = .finished ending ∧ ending ≠ .clean := by
  unfold readEnvelope parcel
  rw [takeNumber_bigEndian_mod]
  dsimp only
  generalize same : (envelopeBytes topic payload).length % widthBound 4 = announced
  by_cases oversized : maxFrameLength < announced
  · rw [if_pos oversized]
    exact ⟨_, rfl, nofun⟩
  rw [if_neg oversized]
  cases taken : takeExactly announced (envelopeBytes topic payload) with
  | none => exact ⟨_, rfl, nofun⟩
  | some parts =>
    -- what is announced is a part of the envelope only
    obtain ⟨whole, length⟩ := takeExactly_eq_some_iff.1 taken
    have begins : parts.1 <+: envelopeBytes topic payload := ⟨parts.2, whole.symm⟩
    have short : parts.1 ≠ envelopeBytes topic payload := by
      intro all
      rw [← length, all] at oversized
      exact oversized long
    obtain ⟨fault, -, refused, -⟩ :=
      openEnvelope_of_prefix (sealEnvelope_eq_ok_iff.2 ⟨fits, rfl⟩) (.inl begins) short
    dsimp only
    rw [refused]
    exact ⟨_, rfl, nofun⟩

theorem readStream_parcel (fits : Sealable topic payload)
    (short : (envelopeBytes topic payload).length ≤ maxFrameLength) :
    readStream (parcel topic payload) = ([(topic, payload)], .clean) := by
  have carries : Carries (parcel topic payload ++ []) [(topic, payload)] [] :=
    .next (sealEnvelope_eq_ok_iff.2 ⟨fits, rfl⟩) short (.nothing [])
  rw [List.append_nil] at carries
  exact readStream_eq carries rfl

theorem readStream_parcel_of_long (fits : Sealable topic payload)
    (long : maxFrameLength < (envelopeBytes topic payload).length) :
    (readStream (parcel topic payload)).1 = [] ∧ (readStream (parcel topic payload)).2 ≠ .clean := by
  obtain ⟨ending, ended, failed⟩ := readEnvelope_parcel_of_long fits long
  rw [readStream_eq (.nothing _) ended]
  exact ⟨rfl, failed⟩

/-- **What a sender accepts arrives just if the envelope is not too long for the reader.**
It is then delivered once and alone, and the reader ends well; else nothing is delivered, and
the reader fails. -/
theorem arrives_iff_fits (sent : onWire .stream topic payload = .ok bytes) :
    (readStream bytes = ([(topic, payload)], .clean) ↔
      6 + (Utf8.encode topic).length + payload.length ≤ 16777216) ∧
    (16777216 < 6 + (Utf8.encode topic).length + payload.length →
      (readStream bytes).1 = [] ∧ (readStream bytes).2 ≠ .clean) := by
  obtain ⟨fits, rfl⟩ := onWire_stream_eq_ok_iff.1 sent
  rw [← length_envelopeBytes]
  refine ⟨⟨fun arrives => ?_, readStream_parcel fits⟩, readStream_parcel_of_long fits⟩
  refine Nat.le_of_not_lt fun long => ?_
  have nothing := (readStream_parcel_of_long fits long).1
  rw [arrives] at nothing
  cases nothing

theorem sealable_zeros {n : Nat} (small : n ≤ 4294967295) :
    Sealable "" (List.replicate n 0) :=
  ⟨by decide, by rwa [List.length_replicate]⟩

/-- The largest payload that arrives on the empty topic. -/
theorem arrives_with_full_payload :
    onWire .stream "" (List.replicate 16777210 0) =
        .ok (parcel "" (List.replicate 16777210 0)) ∧
      readStream (parcel "" (List.replicate 16777210 0)) =
        ([("", List.replicate 16777210 0)], .clean) := by
  have sent := onWire_stream_eq_ok_iff.2 ⟨sealable_zeros (n := 16777210) (by decide), rfl⟩
  refine ⟨sent, (arrives_iff_fits sent).1.2 ?_⟩
  rw [List.length_replicate]
  decide

/-- With one byte more it is sent and does not arrive. -/
theorem not_always_arrives :
    ¬∀ (topic : String) (payload bytes : Bytes), onWire .stream topic payload = .ok bytes →
      readStream bytes = ([(topic, payload)], .clean) := by
  intro always
  have fits := sealable_zeros (n := 16777211) (by decide)
  have arrives := always _ _ _ (onWire_stream_eq_ok_iff.2 ⟨fits, rfl⟩)
  have long : maxFrameLength < (envelopeBytes "" (List.replicate 16777211 0)).length := by
    rw [length_envelopeBytes, List.length_replicate]
    decide
  have nothing := (readStream_parcel_of_long fits long).1
  rw [arrives] at nothing
  cases nothing

end TopicMesh.Wire
