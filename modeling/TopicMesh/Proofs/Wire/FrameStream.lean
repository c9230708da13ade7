import TopicMesh.Wire.FrameStream

/-!
# Frames across a channel

A frame that was written is read back, and reading leaves what was written after it
(`readFrame_frameBytes`).  So a stream that frames were written on never fails to be
read (`WellFramed`): there is nothing on it, or a frame and such a stream after it.

Reading frame after frame (`Reads`) undoes writing frame after frame (`writeAll`), and the
other way round: no two streams hold the same frames.  As a read that is not over knows
whether it ran out of bytes (`readFrame_more`), a stream that was cut off within a frame
gives all frames before the cut and then fails (`frames_cross_the_stream`).
-/

namespace TopicMesh.Wire

theorem kindOfByte?_kindByte (kind : FrameKind) : kindOfByte? (kindByte kind) = some kind := by
  cases kind <;> rfl

theorem ofNat_toNat_lt (n : UInt32) : n.toNat < widthBound 4 :=
  n.toNat_lt

/-- **A frame is read back from its bytes.** -/
theorem readFrame_frameBytes {f : Frame} (fits : f.data.length ≤ maxFrameLength) (rest : Bytes) :
    readFrame (frameBytes f ++ rest) = .frame f rest := by
  have short : f.data.length < widthBound 4 := Nat.lt_of_le_of_lt fits (by decide)
  unfold frameBytes
  rw [List.cons_append, readFrame, kindOfByte?_kindByte]
  simp only [List.append_assoc, readBody, takeNumber_bigEndian (ofNat_toNat_lt _),
    takeNumber_bigEndian short, if_neg (Nat.not_lt.2 fits), takeExactly_append, UInt32.ofNat_toNat]

theorem writeFrame_of_fits {f : Frame} (fits : f.data.length ≤ maxFrameLength) :
    writeFrame f = .ok (frameBytes f) :=
  if_neg (Nat.not_lt.2 fits)

/-- Whether bytes are those of frames written one after the other. -/
inductive WellFramed : Bytes → Prop
  | nil : WellFramed []
  | cons {f : Frame} {rest : Bytes} (fits : f.data.length ≤ maxFrameLength)
      (others : WellFramed rest) : WellFramed (frameBytes f ++ rest)

theorem WellFramed.append {bytes : Bytes} (h : WellFramed bytes) {f : Frame}
    (fits : f.data.length ≤ maxFrameLength) : WellFramed (bytes ++ frameBytes f) := by
  induction h with
  | nil => simpa using WellFramed.cons fits .nil
  | cons first _ ih =>
    rw [List.append_assoc]
    exact .cons first ih

/-- What is read from a stream of frames is a frame or, once there is none, the end. -/
theorem WellFramed.read {bytes : Bytes} (h : WellFramed bytes) :
    (bytes = [] ∧ readFrame bytes = .finished) ∨
      ∃ f rest, readFrame bytes = .frame f rest ∧ WellFramed rest := by
  cases h with
  | nil => exact .inl ⟨rfl, rfl⟩
  | @cons f rest fits others => exact .inr ⟨f, rest, readFrame_frameBytes fits rest, others⟩

/-! ## One frame -/

theorem kindByte_of_kindOfByte? {b : UInt8} {kind : FrameKind} (h : kindOfByte? b = some kind) :
    kindByte kind = b := by
  unfold kindOfByte? at h
  split at h
  · next zero =>
    cases h
    exact zero.symm
  · split at h
    · next one =>
      cases h
      exact one.symm
    · cases h

/-- **What is read as a frame are the bytes of that frame.** -/
theorem readFrame_eq_frame {bytes rest : Bytes} {f : Frame}
    (h : readFrame bytes = .frame f rest) :
    bytes = frameBytes f ++ rest ∧ f.data.length ≤ maxFrameLength := by
  cases bytes with
  | nil => cases h
  | cons b bytes =>
    rw [readFrame] at h
    split at h
    · cases h
    · next kind named =>
      unfold readBody at h
      split at h
      · cases h
      · next width bytes₁ atWidth =>
        split at h
        · cases h
        · next height bytes₂ atHeight =>
          split at h
          · cases h
          · next length bytes₃ atLength =>
            split at h
            · cases h
            · next fits =>
              split at h
              · cases h
              · next data rest' atData =>
                cases h
                obtain ⟨rfl, wide⟩ := takeNumber_eq_some atWidth
                obtain ⟨rfl, high⟩ := takeNumber_eq_some atHeight
                obtain ⟨rfl, -⟩ := takeNumber_eq_some atLength
                obtain ⟨rfl, rfl⟩ := takeExactly_eq_some_iff.1 atData
                have widthBack : (UInt32.ofNat width).toNat = width := Nat.mod_eq_of_lt wide
                have heightBack : (UInt32.ofNat height).toNat = height := Nat.mod_eq_of_lt high
                refine ⟨?_, Nat.le_of_not_lt fits⟩
                simp [frameBytes, kindByte_of_kindOfByte? named, widthBack, heightBack]

theorem readBody_ne_finished (kind : FrameKind) (bytes : Bytes) :
    readBody kind bytes ≠ .finished := by
  unfold readBody
  intro finished
  repeat' split at finished
  all_goals cases finished

/-- Only where no byte is left there is nothing to read. -/
theorem readFrame_eq_finished {bytes : Bytes} (finished : readFrame bytes = .finished) : bytes = [] := by
  cases bytes with
  | nil => rfl
  | cons b bytes =>
    rw [readFrame] at finished
    split at finished
    · cases finished
    · exact absurd finished (readBody_ne_finished _ bytes)

/-- What a read comes to when more bytes follow. -/
def FrameRead.before (more : Bytes) : FrameRead → FrameRead
  | .frame f rest => .frame f (rest ++ more)
  | .finished => .finished
  | .failed fault rest => .failed fault (rest ++ more)

/-- Whether a read ran out of bytes within a frame. -/
def FrameRead.RanOut (r : FrameRead) : Prop :=
  r = .failed .endsInside []

theorem readBody_more (kind : FrameKind) (bytes : Bytes) :
    (readBody kind bytes).RanOut ∨
      ∀ more, readBody kind (bytes ++ more) = (readBody kind bytes).before more := by
  unfold readBody
  cases atWidth : takeNumber 4 bytes with
  | none => exact .inl rfl
  | some width =>
    cases atHeight : takeNumber 4 width.2 with
    | none => exact .inl (by simp only [atHeight]; rfl)
    | some height =>
      cases atLength : takeNumber 4 height.2 with
      | none => exact .inl (by simp only [atHeight, atLength]; rfl)
      | some length =>
        by_cases tooMuch : maxFrameLength < length.1
        · refine .inr fun more => ?_
          simp only [ignoresRest_takeNumber 4 atWidth more, ignoresRest_takeNumber 4 atHeight more,
            ignoresRest_takeNumber 4 atLength more, atHeight, atLength, if_pos tooMuch]
          rfl
        · cases atData : takeExactly length.1 length.2 with
          | none => exact .inl (by simp only [atHeight, atLength, if_neg tooMuch, atData]; rfl)
          | some data =>
            refine .inr fun more => ?_
            simp only [ignoresRest_takeNumber 4 atWidth more,
              ignoresRest_takeNumber 4 atHeight more, ignoresRest_takeNumber 4 atLength more,
              ignoresRest_takeExactly _ atData more, atHeight, atLength, if_neg tooMuch, atData]
            rfl

/-- **A read is over, or ran out of bytes, or is settled** whatever bytes follow. -/
theorem readFrame_more (bytes : Bytes) :
    bytes = [] ∨ (readFrame bytes).RanOut ∨
      ∀ more, readFrame (bytes ++ more) = (readFrame bytes).before more := by
  cases bytes with
  | nil => exact .inl rfl
  | cons b bytes =>
    refine .inr ?_
    simp only [List.cons_append, readFrame]
    cases kindOfByte? b with
    | none => exact .inr fun more => rfl
    | some kind => exact readBody_more kind bytes

/-- **A frame that was cut off is no frame**, and is told from the end of the stream. -/
theorem readFrame_cut {f : Frame} (fits : f.data.length ≤ maxFrameLength) {cut : Nat}
    (begun : 0 < cut) (short : cut < (frameBytes f).length) :
    readFrame ((frameBytes f).take cut) = .failed .endsInside [] := by
  have whole : (frameBytes f).take cut ++ (frameBytes f).drop cut = frameBytes f :=
    List.take_append_drop cut _
  have missing : (frameBytes f).drop cut ≠ [] := by simpa using short
  rcases readFrame_more ((frameBytes f).take cut) with nothing | ranOut | settled
  · have := congrArg List.length nothing
    rw [List.length_take, List.length_nil] at this
    omega
  · exact ranOut
  · -- with the missing bytes the frame is read, and none of them would be left
    have back := readFrame_frameBytes fits []
    rw [List.append_nil, ← whole, settled] at back
    cases read : readFrame ((frameBytes f).take cut) with
    | frame f' rest =>
      rw [read] at back
      injection back with _ left
      exact absurd (List.append_eq_nil_iff.1 left).2 missing
    | finished =>
      rw [read] at back
      cases back
    | failed fault rest =>
      rw [read] at back
      cases back

/-! ## Frame after frame -/

/-- Writes a frame behind what was written, unless it is refused: what comes of it, and
what is written then. -/
def writeOnto (buffer : Bytes) (f : Frame) : Except FrameFault Unit × Bytes :=
  match writeFrame f with
  | .ok bytes => (.ok (), buffer ++ bytes)
  | .error fault => (.error fault, buffer)

/-- Writes frames one after the other: what comes of each, and what is written then. -/
def writeAll (buffer : Bytes) : List Frame → List (Except FrameFault Unit) × Bytes
  | [] => ([], buffer)
  | f :: rest =>
    let (outcome, buffer) := writeOnto buffer f
    let (outcomes, buffer) := writeAll buffer rest
    (outcome :: outcomes, buffer)

/-- What comes of writing a frame. -/
def verdict (f : Frame) : Except FrameFault Unit :=
  if f.data.length ≤ 16777216 then .ok () else .error (.oversized f.data.length)

/-- The frames that are not too long. -/
def accepted (frames : List Frame) : List Frame :=
  frames.filter fun f => f.data.length ≤ 16777216

/-- **Reading frame after frame**: the frames that are read, and the bytes that are left. -/
inductive Reads : Bytes → List Frame → Bytes → Prop
  | stop (bytes : Bytes) : Reads bytes [] bytes
  | next {bytes between left : Bytes} {f : Frame} {frames : List Frame}
      (first : readFrame bytes = .frame f between) (others : Reads between frames left) :
      Reads bytes (f :: frames) left

theorem writeOnto_eq (buffer : Bytes) (f : Frame) :
    writeOnto buffer f = (verdict f, buffer ++ (accepted [f]).flatMap frameBytes) := by
  unfold writeOnto verdict accepted writeFrame
  by_cases fits : f.data.length ≤ 16777216
  · have kept : ¬maxFrameLength < f.data.length := Nat.not_lt.2 fits
    simp [fits, kept]
  · have refused : maxFrameLength < f.data.length := Nat.lt_of_not_le fits
    simp [fits, refused]

/-- **Frames that are too long are refused, and what is written are the others.** -/
theorem writeAll_eq (buffer : Bytes) (frames : List Frame) :
    writeAll buffer frames =
      (frames.map verdict, buffer ++ (accepted frames).flatMap frameBytes) := by
  induction frames generalizing buffer with
  | nil => simp [writeAll, accepted]
  | cons f rest ih =>
    have split : accepted ([f] ++ rest) = accepted [f] ++ accepted rest := List.filter_append ..
    rw [List.singleton_append] at split
    rw [writeAll, writeOnto_eq]
    dsimp only
    rw [ih, split, List.flatMap_append, List.append_assoc]
    rfl

theorem reads_written {frames : List Frame} (fit : ∀ f ∈ frames, f.data.length ≤ maxFrameLength)
    (left : Bytes) : Reads (frames.flatMap frameBytes ++ left) frames left := by
  induction frames with
  | nil => exact .stop left
  | cons f rest ih =>
    obtain ⟨first, others⟩ := List.forall_mem_cons.1 fit
    rw [List.flatMap_cons, List.append_assoc]
    exact .next (readFrame_frameBytes first _) (ih others)

/-- What was read is what is written of the frames. -/
theorem Reads.written {bytes left : Bytes} {frames : List Frame} (reads : Reads bytes frames left) :
    bytes = frames.flatMap frameBytes ++ left ∧ ∀ f ∈ frames, f.data.length ≤ maxFrameLength := by
  induction reads with
  | stop bytes => exact ⟨rfl, nofun⟩
  | next first _ ih =>
    obtain ⟨rfl, fits⟩ := readFrame_eq_frame first
    obtain ⟨rfl, others⟩ := ih
    exact ⟨by rw [List.flatMap_cons, List.append_assoc], List.forall_mem_cons.2 ⟨fits, others⟩⟩

theorem Reads.length_le {bytes left : Bytes} {frames : List Frame} (reads : Reads bytes frames left) :
    frames.length + left.length ≤ bytes.length := by
  induction reads with
  | stop bytes => exact Nat.le_of_eq (Nat.zero_add _)
  | @next _ _ _ f _ first _ ih =>
    obtain ⟨rfl, -⟩ := readFrame_eq_frame first
    have some_bytes : 0 < (frameBytes f).length := Nat.succ_pos _
    rw [List.length_cons, List.length_append]
    omega

theorem Reads.readUpTo_eq {bytes left : Bytes} {frames : List Frame} (reads : Reads bytes frames left)
    (n : Nat) :
    readUpTo (frames.length + n) bytes = (frames ++ (readUpTo n left).1, (readUpTo n left).2) := by
  induction reads with
  | stop bytes =>
    rw [List.length_nil, Nat.zero_add]
    rfl
  | next first _ ih =>
    rw [List.length_cons, Nat.add_right_comm, readUpTo, first]
    dsimp only
    rw [ih]
    rfl

/-- A stream is read to its end, as each frame takes some bytes. -/
theorem Reads.readFrames_eq {bytes left : Bytes} {frames : List Frame}
    (reads : Reads bytes frames left) :
    ∃ n, readFrames bytes = (frames ++ (readUpTo (n + 1) left).1, (readUpTo (n + 1) left).2) := by
  have := reads.length_le
  refine ⟨bytes.length - frames.length, ?_⟩
  rw [← reads.readUpTo_eq, readFrames]
  congr 1
  omega

theorem Reads.clean {bytes : Bytes} {frames : List Frame} (reads : Reads bytes frames []) :
    readFrames bytes = (frames, .clean) := by
  obtain ⟨n, same⟩ := reads.readFrames_eq
  rw [same]
  exact congrArg (·, FrameEnd.clean) (List.append_nil frames)

theorem Reads.failed {bytes left rest : Bytes} {frames : List Frame} {fault : FrameFault}
    (reads : Reads bytes frames left) (fails : readFrame left = .failed fault rest) :
    readFrames bytes = (frames, .failed fault rest) := by
  obtain ⟨n, same⟩ := reads.readFrames_eq
  rw [same, readUpTo, fails]
  exact congrArg (·, FrameEnd.failed fault rest) (List.append_nil frames)

theorem reads_of_readUpTo {n : Nat} {bytes : Bytes} {frames : List Frame}
    (clean : readUpTo n bytes = (frames, .clean)) : Reads bytes frames [] := by
  induction n generalizing bytes frames with
  | zero => cases clean
  | succ n ih =>
    rw [readUpTo] at clean
    split at clean
    · next finished =>
      cases clean
      rw [readFrame_eq_finished finished]
      exact .stop []
    · cases clean
    · next f rest first =>
      obtain ⟨rfl, ending⟩ := Prod.mk.inj clean
      exact .next first (ih (Prod.ext rfl ending))

/-- A stream that was cut off within a frame: the frames before it are read, then it fails. -/
theorem readFrames_cut {before after : List Frame} {f : Frame}
    (fit : ∀ g ∈ before ++ f :: after, g.data.length ≤ maxFrameLength) {cut : Nat}
    (begun : 0 < cut) (short : cut < (frameBytes f).length) :
    readFrames (((before ++ f :: after).flatMap frameBytes).take
        ((before.flatMap frameBytes).length + cut)) = (before, .failed .endsInside []) := by
  obtain ⟨earlier, others⟩ := List.forall_mem_append.1 fit
  have fits := (List.forall_mem_cons.1 others).1
  have kept : ((before ++ f :: after).flatMap frameBytes).take
      ((before.flatMap frameBytes).length + cut) =
        before.flatMap frameBytes ++ (frameBytes f).take cut := by
    rw [List.flatMap_append, List.take_length_add_append, List.flatMap_cons,
      List.take_append_of_le_length (Nat.le_of_lt short)]
  rw [kept]
  exact (reads_written earlier _).failed (readFrame_cut fits begun short)

/-- **What becomes of frames that are written one after the other**, by what comes of each
and what is written then. -/
structure Crossing (frames : List Frame) (written : List (Except FrameFault Unit) × Bytes) :
    Prop where
  /-- The frames that are too long are refused, and no others. -/
  refused : written.1 = frames.map verdict
  /-- Nothing is written of a refused frame. -/
  stream : written.2 = (accepted frames).flatMap frameBytes
  /-- Reading gives the accepted frames in order and leaves nothing. -/
  reads : Reads written.2 (accepted frames) []
  clean : readFrames written.2 = (accepted frames, .clean)
  /-- Of a stream that is cut off within a frame the frames before are read; then reading fails. -/
  cut_off : ∀ before f after, accepted frames = before ++ f :: after →
    ∀ cut, 0 < cut → cut < (frameBytes f).length →
      readFrames (written.2.take ((before.flatMap frameBytes).length + cut)) =
        (before, .failed .endsInside [])

/-- **Frames cross a stream unchanged.**  What is written frame after frame is read frame
after frame, a cut within a frame is noticed, and a stream that can be read to its end is
what is written of the frames that were read. -/
theorem frames_cross_the_stream :
    (∀ frames, Crossing frames (writeAll [] frames)) ∧
      ∀ bytes frames, readFrames bytes = (frames, .clean) →
        Reads bytes frames [] ∧ writeAll [] frames = (frames.map fun _ => .ok (), bytes) := by
  constructor
  · intro frames
    have fit : ∀ f ∈ accepted frames, f.data.length ≤ maxFrameLength := fun f there =>
      of_decide_eq_true (List.mem_filter.1 there).2
    have reads := reads_written fit []
    rw [List.append_nil] at reads
    rw [writeAll_eq, List.nil_append]
    refine ⟨rfl, rfl, reads, reads.clean, fun before f after same cut begun short => ?_⟩
    dsimp only
    rw [same] at fit ⊢
    exact readFrames_cut fit begun short
  · intro bytes frames clean
    have reads := reads_of_readUpTo clean
    obtain ⟨same, fit⟩ := reads.written
    have all : accepted frames = frames :=
      List.filter_eq_self.2 fun f there => decide_eq_true (fit f there)
    have allowed : frames.map verdict = frames.map fun _ => .ok () :=
      List.map_congr_left fun f there => if_pos (fit f there)
    rw [List.append_nil] at same
    exact ⟨reads, by rw [writeAll_eq, all, allowed, same, List.nil_append]⟩

end TopicMesh.Wire
