import ChannelServer.Proofs.RoundTrip

/-!
# Frames without a buffer

There are two readers and two writers of frames.  One pair works on a buffer: it says in advance how
long a frame will be, and it leaves a frame alone until all of it is there.  The other pair works on
a stream: it measures what it has encoded, and it takes bytes as it needs them.  What it has taken
of a frame that is too long or not whole is lost.

Both pairs speak the same format, for every limit, also for one that does not fit into a length
field.  A single frame is read alike by both (`readFrame_eq`), so by induction on the frames that
the buffer gives they read the same items, and stop at the same place for the same reason.

## Main results

* `writeFrame_eq_frame`: the writers agree.
* `readFrame_eq`: the readers agree on one frame.
* `readFrames_eq`: the readers agree on a whole stream.
-/

namespace ChannelServer.Wire

variable {limit : Nat}

/-! ## Writing -/

/-- What was measured is what was said in advance. -/
theorem writeFrame_eq_frame (limit : Nat) (entry : Entry) :
    writeFrame limit entry = frame limit entry := by
  simp only [writeFrame, frame, entry.length_encode]

/-- A channel that does not fit is refused for its size. -/
theorem frame_eq_error {entry : Entry} {fault : OversizeFrame} :
    frame limit entry = .error fault ↔
      limit < encodedSize entry.info ∧ fault = ⟨encodedSize entry.info, limit⟩ := by
  rw [frame]
  split
  · rename_i hbeyond
    rw [Except.error.injEq, and_iff_right hbeyond]
    exact eq_comm
  · rename_i hfits
    exact iff_of_false (by rintro ⟨⟩) fun h => hfits h.1

/-! ## Reading one frame -/

theorem takeExact_of_le {count : Nat} {input : List UInt8} (h : count ≤ input.length) :
    takeExact count input = .ok (input.take count, input.drop count) :=
  if_pos (List.length_take_of_le h)

theorem takeExact_of_lt {count : Nat} {input : List UInt8} (h : input.length < count) :
    takeExact count input = .error .endOfInput := by
  refine if_neg fun hlength => ?_
  rw [List.length_take] at hlength
  omega

/-- Without a whole length field there is nothing to be read. -/
theorem readFrame_of_short {input : List UInt8} (h : input.length < lengthFieldSize) :
    readFrame limit input = .error .endOfInput := by
  rw [readFrame, takeExact_of_lt h]
  rfl

/-- Behind a length field, the length decides what is read. -/
theorem readFrame_of_lengthField {length : Nat} (hroom : length < UInt32.size)
    (after : List UInt8) :
    readFrame limit (lengthField length ++ after) =
      if limit < length then .error (.oversize ⟨length, limit⟩)
      else if after.length < length then .error .endOfInput
      else .ok (Entry.decodeWhole (after.take length), after.drop length) := by
  have hfield : takeExact lengthFieldSize (lengthField length ++ after) =
      .ok (lengthField length, after) := takeExact_of_le (Nat.le_add_left _ _)
  have hsplit : splitLength? (lengthField length) = some (length, []) := by
    have hread := splitLength?_lengthField hroom []
    rwa [List.append_nil] at hread
  simp only [readFrame, hfield, bind, Except.bind, pure, Except.pure, hsplit]
  by_cases hbeyond : limit < length
  · rw [if_pos hbeyond, if_pos hbeyond]
    rfl
  · rw [if_neg hbeyond, if_neg hbeyond]
    by_cases hshort : after.length < length
    · rw [if_pos hshort, takeExact_of_lt hshort]
    · rw [if_neg hshort, takeExact_of_le (Nat.le_of_not_lt hshort)]

/-- The readers agree on one frame: where the one waits for more bytes, the other has come to the
end of its input. -/
theorem readFrame_eq (limit : Nat) (input : List UInt8) :
    readFrame limit input =
      match nextFrame limit input with
      | .incomplete => .error .endOfInput
      | .oversize fault => .error (.oversize fault)
      | .frame item rest => .ok (item, rest) := by
  cases hsplit : splitLength? input with
  | none =>
      have hshort := splitLength?_eq_none.mp hsplit
      rw [readFrame_of_short hshort, nextFrame, hsplit]
  | some front =>
      obtain ⟨length, after⟩ := front
      obtain ⟨hroom, hinput⟩ := splitLength?_eq_some.mp hsplit
      have hread := @readFrame_of_lengthField limit length hroom after
      rw [← hinput] at hread
      have hlength : (after.take length).length < length ↔ after.length < length := by
        rw [List.length_take]
        omega
      simp only [hread, nextFrame, hsplit, hlength]
      split
      · rfl
      · split <;> rfl

/-! ## Reading a stream -/

theorem readFrames_of_error {input : List UInt8} {fault : ReadFault}
    (h : readFrame limit input = .error fault) : readFrames limit input = ([], fault) := by
  rw [readFrames]
  split <;> simp_all only [reduceCtorEq, Except.error.injEq]

theorem readFrames_of_ok {input rest : List UInt8} {item : Item}
    (h : readFrame limit input = .ok (item, rest)) :
    readFrames limit input = (item :: (readFrames limit rest).1, (readFrames limit rest).2) := by
  rw [readFrames]
  split <;> simp_all only [reduceCtorEq, Except.ok.injEq, Prod.mk.injEq]

/-- Reading a stream to its first fault gives the items of the buffer.  The fault is the oversize
frame that the buffer stops at, or else the end of the input. -/
theorem readFrames_eq (limit : Nat) (input : List UInt8) :
    readFrames limit input =
      ((drain limit input).items, (drain limit input).oversize.elim .endOfInput .oversize) := by
  induction input using drain.induct limit with
  | case1 buffer hnext =>
      have hread := readFrame_eq limit buffer
      rw [hnext] at hread
      rw [readFrames_of_error hread, drain_of_incomplete hnext]
      rfl
  | case2 buffer fault hnext =>
      have hread := readFrame_eq limit buffer
      rw [hnext] at hread
      rw [readFrames_of_error hread, drain_of_oversize hnext]
      rfl
  | case3 buffer item rest hnext ih =>
      have hread := readFrame_eq limit buffer
      rw [hnext] at hread
      rw [readFrames_of_ok hread, drain_of_frame hnext, ih]

/-- For every limit the two writers write the same bytes, those of the frame, or refuse the channel
with the same fault.  The two readers take one frame alike, item and rest.  So the items that are
read until the first fault are those that are taken from a buffer with all the bytes until no more
can be taken; the fault is an oversize frame, in the same words, exactly if the buffer stops at it,
and otherwise the end of the input. -/
theorem direct_agrees (limit : Nat) :
    (∀ entry, writeFrame limit entry = frame limit entry ∧
      (∀ bytes, frame limit entry = .ok bytes ↔
        encodedSize entry.info ≤ limit ∧ bytes = framed entry.encode) ∧
      ∀ fault, frame limit entry = .error fault ↔
        limit < encodedSize entry.info ∧ fault = ⟨encodedSize entry.info, limit⟩) ∧
    (∀ input item rest,
      readFrame limit input = .ok (item, rest) ↔ nextFrame limit input = .frame item rest) ∧
    ∀ input,
      let read := readFrames limit input
      let drained := drain limit input
      read.1 = drained.items ∧
        (∀ fault, read.2 = .oversize fault ↔ drained.oversize = some fault) ∧
        (read.2 = .endOfInput ↔ drained.oversize = none) ∧
        ∀ fault, drained.oversize = some fault → read.2.message = fault.message := by
  refine ⟨fun entry => ⟨writeFrame_eq_frame limit entry, fun _ => frame_eq_ok,
    fun _ => frame_eq_error⟩, fun input item rest => ?_, ?_⟩
  · rw [readFrame_eq]
    cases nextFrame limit input <;> simp
  · intro input read drained
    have hread : read = (drained.items, drained.oversize.elim .endOfInput .oversize) :=
      readFrames_eq limit input
    rw [hread]
    cases drained.oversize with
    | none => exact ⟨rfl, by simp, by simp, nofun⟩
    | some found =>
        refine ⟨rfl, by simp, by simp, ?_⟩
        rintro fault ⟨⟩
        rfl

/-- A frame without a channel, and then a length beyond the limit. -/
example :
    readFrames 64 [0, 0, 0, 0, 0, 0, 0, 65, 9] =
      ([.error (.badInput (.channelTooShort 0 minimumSize))], .oversize ⟨65, 64⟩) := by
  rw [readFrames_of_ok rfl, readFrames_of_error rfl]
  rfl

end ChannelServer.Wire
