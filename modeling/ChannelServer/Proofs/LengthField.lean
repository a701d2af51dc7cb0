import ChannelServer.Proofs.Direct

/-!
# What a length field can say

A length field has 32 bits.  A limit may be larger than that, and then a channel is accepted whose
bytes are more than a length field can count.  It is written all the same, and the field holds what
is left of the length in 32 bits.

Below that border the length field of a written frame is the number of the bytes after it, and both
readers, given the same limit, take the frame back whole.  From the border on neither is true: a
reader takes only the front of the frame and reads on in the middle of it.  So a limit is safe for
every channel exactly if it fits into a length field itself (`faithful_iff_word`).

A channel beyond the border has four gibibytes, too many to compute with.  `longNamed` is looked at
for every number of letters, and the number is put in at the end.

## Main results

* `splitLength?_framed`: what the length field of a frame says, for every length.
* `nextFrame_framed_front`: what a reader takes of a frame, for every length.
* `faithful_iff`: the channels of which a frame is written as it should be.
-/

namespace ChannelServer.Wire

/-- The bytes begin with a length field, and it says how many bytes come after it. -/
def Truthful (bytes : List UInt8) : Prop :=
  ∃ payload, splitLength? bytes = some (payload.length, payload)

/-- One of the two writers accepts the channel and writes these bytes. -/
def Writes (limit : Nat) (entry : Entry) (bytes : List UInt8) : Prop :=
  frame limit entry = .ok bytes ∨ writeFrame limit entry = .ok bytes

/-- Both readers take the bytes as one frame around the payload, whatever comes after them. -/
def TakenWhole (limit : Nat) (payload bytes : List UInt8) : Prop :=
  ∀ later, nextFrame limit (bytes ++ later) = .frame (Entry.decodeWhole payload) later ∧
    readFrame limit (bytes ++ later) = .ok (Entry.decodeWhole payload, later)

/-- Whatever is written of the channel says its own length, and with the same limit it is read back
whole. -/
def Faithful (limit : Nat) (entry : Entry) : Prop :=
  ∀ bytes, Writes limit entry bytes → Truthful bytes ∧ TakenWhole limit entry.encode bytes

variable {limit : Nat} {payload : List UInt8} {entry : Entry}

/-! ## Frames of any length -/

/-- The length field keeps what the length is in 32 bits. -/
theorem splitLength?_framed (payload later : List UInt8) :
    splitLength? (framed payload ++ later) =
      some (payload.length % UInt32.size, payload ++ later) := by
  have hfield : lengthField payload.length = lengthField (payload.length % UInt32.size) := by
    rw [lengthField, lengthField, UInt32.ofNat_mod_size']
  rw [framed, hfield, List.append_assoc]
  exact splitLength?_lengthField (Nat.mod_lt _ (by decide)) _

/-- The reader takes as many bytes as the length field says, and reads on behind them. -/
theorem nextFrame_framed_front (hfits : payload.length ≤ limit) (later : List UInt8) :
    nextFrame limit (framed payload ++ later) =
      .frame (Entry.decodeWhole (payload.take (payload.length % UInt32.size)))
        (payload.drop (payload.length % UInt32.size) ++ later) := by
  have hsaid : payload.length % UInt32.size ≤ payload.length := Nat.mod_le _ _
  have hwithin : ¬ limit < payload.length % UInt32.size := by omega
  have htake : (payload ++ later).take (payload.length % UInt32.size) =
      payload.take (payload.length % UInt32.size) := List.take_append_of_le_length hsaid
  have hdrop : (payload ++ later).drop (payload.length % UInt32.size) =
      payload.drop (payload.length % UInt32.size) ++ later := List.drop_append_of_le_length hsaid
  have hthere : ¬ (payload.take (payload.length % UInt32.size)).length <
      payload.length % UInt32.size := by
    rw [List.length_take_of_le hsaid]
    exact Nat.lt_irrefl _
  simp only [nextFrame, splitLength?_framed, if_neg hwithin, htake, if_neg hthere, hdrop]

theorem truthful_framed_iff : Truthful (framed payload) ↔ payload.length < UInt32.size := by
  have hsplit := splitLength?_framed payload []
  rw [List.append_nil, List.append_nil] at hsplit
  rw [Truthful, hsplit]
  constructor
  · rintro ⟨payload', hsame⟩
    obtain ⟨hlength, rfl⟩ := Prod.mk.inj (Option.some.inj hsame)
    rw [← hlength]
    exact Nat.mod_lt _ (by decide)
  · intro hroom
    exact ⟨payload, by rw [Nat.mod_eq_of_lt hroom]⟩

theorem takenWhole_framed_iff (hfits : payload.length ≤ limit) :
    TakenWhole limit payload (framed payload) ↔ payload.length < UInt32.size := by
  constructor
  · intro hwhole
    have hnext := (hwhole []).1
    rw [nextFrame_framed_front hfits, List.append_nil] at hnext
    have hempty : payload.drop (payload.length % UInt32.size) = [] := (Front.frame.inj hnext).2
    have hall : payload.length ≤ payload.length % UInt32.size := List.drop_eq_nil_iff.mp hempty
    exact Nat.lt_of_le_of_lt hall (Nat.mod_lt _ (by decide))
  · intro hroom later
    have hnext := nextFrame_framed_front hfits later
    rw [Nat.mod_eq_of_lt hroom, List.take_length, List.drop_length, List.nil_append] at hnext
    exact ⟨hnext, by rw [readFrame_eq, hnext]⟩

/-! ## Channels of any length -/

/-- The writers accept a channel exactly if it is within the limit, and write its frame. -/
theorem writes_iff {bytes : List UInt8} :
    Writes limit entry bytes ↔ encodedSize entry.info ≤ limit ∧ bytes = framed entry.encode := by
  rw [Writes, writeFrame_eq_frame, or_self, frame_eq_ok]

/-- A channel is written as it should be exactly if it is refused or fits into a length field. -/
theorem faithful_iff : Faithful limit entry ↔
    (encodedSize entry.info ≤ limit → encodedSize entry.info < UInt32.size) := by
  simp only [Faithful, writes_iff, and_imp, forall_eq_apply_imp_iff, ← entry.length_encode]
  refine forall_congr' fun hfits => ?_
  rw [truthful_framed_iff, takenWhole_framed_iff hfits, and_self]

/-- A channel whose name is that many letters long, and without any other text. -/
def longNamed (letters : Nat) : Entry where
  id := ⟨1⟩
  parent := none
  info :=
    { Metadata.preset with
      name := String.ofList (List.replicate letters 'a')
      topic := ""
      description := "" }

theorem utf8ByteSize_replicate (letters : Nat) :
    (String.ofList (List.replicate letters 'a')).utf8ByteSize = letters := by
  induction letters with
  | zero => rfl
  | succ letters ih =>
      have hcons : String.ofList (List.replicate (letters + 1) 'a') =
          String.ofList ['a'] ++ String.ofList (List.replicate letters 'a') := by
        rw [List.replicate_succ, ← String.ofList_append]
        rfl
      rw [hcons, String.utf8ByteSize_append, ih, Nat.add_comm]
      rfl

theorem encodedSize_longNamed (letters : Nat) :
    encodedSize (longNamed letters).info = letters + minimumSize := by
  simp only [encodedSize, longNamed, utf8ByteSize_replicate, String.utf8ByteSize_empty, minimumSize]
  omega

/-- For every limit: a channel is written with its true length, and read back whole, exactly if it
is refused or fits into a length field.  Every channel is, exactly if the limit fits into one.  What
is written of an accepted channel otherwise says its length in 32 bits, and that many bytes are
taken for the frame. -/
theorem faithful_iff_word (limit : Nat) :
    ((∀ entry, Faithful limit entry) ↔ limit < UInt32.size) ∧
    ∀ entry,
      (Faithful limit entry ↔
        (encodedSize entry.info ≤ limit → encodedSize entry.info < UInt32.size)) ∧
      ∀ bytes, Writes limit entry bytes →
        let said := encodedSize entry.info % UInt32.size
        splitLength? bytes = some (said, entry.encode) ∧
          ∀ later, nextFrame limit (bytes ++ later) =
            .frame (Entry.decodeWhole (entry.encode.take said))
              (entry.encode.drop said ++ later) := by
  refine ⟨⟨fun hall => ?_, fun hlimit entry => ?_⟩, fun entry => ⟨faithful_iff, ?_⟩⟩
  · -- A channel that uses up the limit is accepted, and so it has to fit.
    refine Nat.lt_of_not_le fun hlarge => ?_
    have hsize : encodedSize (longNamed (UInt32.size - minimumSize)).info = UInt32.size := by
      rw [encodedSize_longNamed]
      exact Nat.sub_add_cancel (by decide)
    have hroom := faithful_iff.mp (hall (longNamed (UInt32.size - minimumSize)))
    rw [hsize] at hroom
    exact Nat.lt_irrefl _ (hroom hlarge)
  · exact faithful_iff.mpr fun hfits => Nat.lt_of_le_of_lt hfits hlimit
  · intro bytes hwrites said
    obtain ⟨hfits, rfl⟩ := writes_iff.mp hwrites
    have hsplit := splitLength?_framed entry.encode []
    rw [← entry.length_encode] at hfits
    rw [List.append_nil, List.append_nil, entry.length_encode] at hsplit
    refine ⟨hsplit, fun later => ?_⟩
    have hnext := nextFrame_framed_front hfits later
    rwa [entry.length_encode] at hnext

/-- The frame of a channel with a long name begins like that of any other. -/
theorem take_framed_longNamed (letters : Nat) :
    (framed (longNamed letters).encode).take (lengthFieldSize + Header.size) =
      lengthField (letters + minimumSize) ++ (longNamed letters).header.encode := by
  have hlength : (lengthField (longNamed letters).encode.length ++
      (longNamed letters).header.encode).length = lengthFieldSize + Header.size := rfl
  rw [← encodedSize_longNamed, ← Entry.length_encode, framed, ← hlength, Entry.encode,
    List.append_assoc, List.append_assoc, ← List.append_assoc]
  exact List.take_left

/-- With the largest limit there is, a channel of 2 ^ 32 bytes is accepted and its length field says
zero.  A reader that has got no more of it than the length field and the header has already taken
two frames without a channel from it. -/
theorem not_faithful_of_long_name :
    let limit := UInt64.size - 1
    let entry := longNamed (UInt32.size - minimumSize)
    let start : List UInt8 :=
      [0, 0, 0, 0, 0, 0, 0, 1, 0, 0, 0, 11, 255, 255, 255, 255, 0, 0, 0, 16]
    ¬ Faithful limit entry ∧
      ∃ bytes, frame limit entry = .ok bytes ∧ writeFrame limit entry = .ok bytes ∧
        bytes.length = lengthFieldSize + UInt32.size ∧
        bytes.take (lengthFieldSize + Header.size) = start ∧
        drain limit start =
          ⟨[.error (.badInput (.channelTooShort 0 minimumSize)),
            .error (.badInput (.channelTooShort 1 minimumSize))], start.drop 9, none⟩ := by
  intro limit entry start
  have hsize : encodedSize entry.info = UInt32.size := by
    rw [encodedSize_longNamed]
    exact Nat.sub_add_cancel (by decide)
  have hfits : encodedSize entry.info ≤ limit := by
    rw [hsize]
    decide
  have hframe : frame limit entry = .ok (framed entry.encode) := frame_eq_ok.mpr ⟨hfits, rfl⟩
  refine ⟨fun hfaithful => ?_, framed entry.encode, hframe, ?_, ?_, ?_, ?_⟩
  · have hroom := faithful_iff.mp hfaithful hfits
    rw [hsize] at hroom
    exact Nat.lt_irrefl _ hroom
  · rw [writeFrame_eq_frame, hframe]
  · rw [framed, List.length_append, Entry.length_encode, hsize]
    rfl
  · rw [take_framed_longNamed, Nat.sub_add_cancel (by decide)]
    decide
  · have hfirst : nextFrame limit start =
        .frame (.error (.badInput (.channelTooShort 0 minimumSize))) (start.drop 4) := rfl
    have hsecond : nextFrame limit (start.drop 4) =
        .frame (.error (.badInput (.channelTooShort 1 minimumSize))) (start.drop 9) := rfl
    have hrest : nextFrame limit (start.drop 9) = .incomplete := rfl
    rw [drain_of_frame hfirst, drain_of_frame hsecond, drain_of_incomplete hrest]

end ChannelServer.Wire
