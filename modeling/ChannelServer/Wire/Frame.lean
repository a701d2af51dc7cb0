import ChannelServer.Wire.Entry

/-!
# Frames

A stream of channels is a sequence of frames, each a length of four bytes and one channel of that
length. A frame whose channel cannot be read is an item like any other, and reading goes on behind
it. Only a length beyond the limit ends the stream, because nothing says where the next frame
begins; it is noticed as soon as the length is there.

Frames are read in two ways: from a buffer that grows piece by piece (`nextFrame`, `drain`) and from
an input that is read to its end (`readFrame`, `readFrames`). Likewise they are written in two ways:
`frame` computes the size in advance, `writeFrame` measures the bytes.
-/

namespace ChannelServer.Wire

/-- What a frame holds: a channel, or the reason why it holds none. -/
abbrev Item := Except Fault Entry

/-- The number of bytes of the length field. -/
def lengthFieldSize : Nat := 4

/-- The longest frame unless a limit is given. -/
def defaultLimit : Nat := 65536

/-- The length field for a number of bytes. It has 32 bits. -/
def lengthField (length : Nat) : List UInt8 :=
  word32 (UInt32.ofNat length)

/-- The length that a buffer begins with, and the bytes after it. -/
def splitLength? : List UInt8 → Option (Nat × List UInt8)
  | b₃ :: b₂ :: b₁ :: b₀ :: rest => some ((joinWord32 b₃ b₂ b₁ b₀).toNat, rest)
  | _ => none

theorem length_of_splitLength? {buffer rest : List UInt8} {length : Nat}
    (h : splitLength? buffer = some (length, rest)) :
    buffer.length = rest.length + lengthFieldSize := by
  unfold splitLength? at h
  split at h
  · cases h; rfl
  · cases h

/-! ## Reading from a buffer -/

/-- What the front of a buffer is. -/
inductive Front where
  /-- More bytes are needed to tell. -/
  | incomplete
  /-- A frame beyond the limit. -/
  | oversize (fault : OversizeFrame)
  /-- A whole frame, and the bytes after it. -/
  | frame (item : Item) (rest : List UInt8)

/-- Looks at the front of a buffer. -/
def nextFrame (limit : Nat) (buffer : List UInt8) : Front :=
  match splitLength? buffer with
  | none => .incomplete
  | some (length, rest) =>
    if limit < length then .oversize ⟨length, limit⟩
    else if (rest.take length).length < length then .incomplete
    else .frame (Entry.decodeWhole (rest.take length)) (rest.drop length)

/-- Every frame takes at least its length field from the buffer. -/
theorem length_lt_of_nextFrame {limit : Nat} {buffer rest : List UInt8} {item : Item}
    (h : nextFrame limit buffer = .frame item rest) : rest.length < buffer.length := by
  unfold nextFrame at h
  split at h
  · cases h
  · rename_i length tail hSplit
    have hLength := length_of_splitLength? hSplit
    split at h
    · cases h
    · split at h
      · cases h
      · cases h
        simp only [List.length_drop, lengthFieldSize] at hLength ⊢
        omega

/-- What is left when no more frames can be taken from a buffer. -/
structure Drained where
  items : List Item
  /-- The bytes that are kept for later. -/
  rest : List UInt8
  /-- The oversize frame at the front of the rest. -/
  oversize : Option OversizeFrame

/-- Takes frames from a buffer until more bytes are needed or a frame is oversize. -/
def drain (limit : Nat) (buffer : List UInt8) : Drained :=
  match _h : nextFrame limit buffer with
  | .incomplete => ⟨[], buffer, none⟩
  | .oversize fault => ⟨[], buffer, some fault⟩
  | .frame item rest =>
    let drained := drain limit rest
    { drained with items := item :: drained.items }
termination_by buffer.length
decreasing_by exact length_lt_of_nextFrame ‹_›

theorem drain_of_incomplete {limit : Nat} {buffer : List UInt8}
    (h : nextFrame limit buffer = .incomplete) : drain limit buffer = ⟨[], buffer, none⟩ := by
  rw [drain]
  split <;> simp_all only [reduceCtorEq]

theorem drain_of_oversize {limit : Nat} {buffer : List UInt8} {fault : OversizeFrame}
    (h : nextFrame limit buffer = .oversize fault) :
    drain limit buffer = ⟨[], buffer, some fault⟩ := by
  rw [drain]
  split <;> simp_all only [reduceCtorEq, Front.oversize.injEq]

theorem drain_of_frame {limit : Nat} {buffer rest : List UInt8} {item : Item}
    (h : nextFrame limit buffer = .frame item rest) :
    drain limit buffer = { drain limit rest with items := item :: (drain limit rest).items } := by
  rw [drain]
  split <;> simp_all only [reduceCtorEq, Front.frame.injEq]

/-- Takes frames from a buffer that gets one piece after the other, and answers piece by piece. -/
def drainPieces (limit : Nat) : List UInt8 → List (List UInt8) → List Drained
  | _, [] => []
  | buffer, piece :: pieces =>
    let drained := drain limit (buffer ++ piece)
    drained :: drainPieces limit drained.rest pieces

/-! ## Reading from an input -/

/-- Why no frame can be read from an input. -/
inductive ReadFault where
  | oversize (fault : OversizeFrame)
  /-- The input ends before the frame does. -/
  | endOfInput
deriving DecidableEq, Repr

/-- The wording of a fault. -/
def ReadFault.message : ReadFault → String
  | oversize fault => fault.message
  | endOfInput => "early eof"

/-- Takes exactly `count` bytes from an input. -/
def takeExact (count : Nat) (input : List UInt8) : Except ReadFault (List UInt8 × List UInt8) :=
  if (input.take count).length = count then .ok (input.take count, input.drop count)
  else .error .endOfInput

/-- Reads one frame from an input. -/
def readFrame (limit : Nat) (input : List UInt8) : Except ReadFault (Item × List UInt8) := do
  let (field, rest) ← takeExact lengthFieldSize input
  match splitLength? field with
  | none => throw .endOfInput
  | some (length, _) =>
    if limit < length then throw (.oversize ⟨length, limit⟩)
    let (payload, rest) ← takeExact length rest
    return (Entry.decodeWhole payload, rest)

/-- Taking bytes leaves that many fewer. -/
theorem length_of_takeExact {count : Nat} {input taken rest : List UInt8}
    (h : takeExact count input = .ok (taken, rest)) : rest.length + count = input.length := by
  unfold takeExact at h
  split at h
  · cases h
    rename_i hLength
    simp only [List.length_take, List.length_drop] at hLength ⊢
    omega
  · cases h

/-- Every frame takes at least its length field from the input. -/
theorem length_lt_of_readFrame {limit : Nat} {input rest : List UInt8} {item : Item}
    (h : readFrame limit input = .ok (item, rest)) : rest.length < input.length := by
  simp only [readFrame, bind, Except.bind, pure, Except.pure, throw, throwThe,
    MonadExceptOf.throw] at h
  split at h
  · cases h
  · rename_i hField
    have hField := length_of_takeExact hField
    split at h
    · cases h
    · split at h
      · cases h
      · split at h
        · cases h
        · rename_i hPayload
          have hPayload := length_of_takeExact hPayload
          cases h
          simp only [lengthFieldSize] at hField
          omega

/-- Reads frames from an input until one cannot be read, and says why. -/
def readFrames (limit : Nat) (input : List UInt8) : List Item × ReadFault :=
  match _h : readFrame limit input with
  | .error fault => ([], fault)
  | .ok (item, rest) =>
    let (items, fault) := readFrames limit rest
    (item :: items, fault)
termination_by input.length
decreasing_by exact length_lt_of_readFrame ‹_›

/-! ## Writing -/

/-- The frame of a channel, its size computed in advance. -/
def frame (limit : Nat) (entry : Entry) : Except OversizeFrame (List UInt8) :=
  let size := encodedSize entry.info
  if limit < size then .error ⟨size, limit⟩
  else .ok (lengthField size ++ entry.encode)

/-- The frame of a channel, its bytes measured. -/
def writeFrame (limit : Nat) (entry : Entry) : Except OversizeFrame (List UInt8) :=
  let bytes := entry.encode
  if limit < bytes.length then .error ⟨bytes.length, limit⟩
  else .ok (lengthField bytes.length ++ bytes)

/-- The frames of many channels one after the other; the first that does not fit ends it. -/
def frames (limit : Nat) : List Entry → Except (ChannelId × OversizeFrame) (List UInt8)
  | [] => .ok []
  | entry :: entries =>
    match frame limit entry with
    | .error fault => .error (entry.id, fault)
    | .ok bytes => (frames limit entries).map (bytes ++ ·)

end ChannelServer.Wire
