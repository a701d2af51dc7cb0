import ChannelServer.Proofs.Framing
import ChannelServer.Proofs.Metadata

/-!
# Reading what was written

A channel that is written to the wire and read again is the channel as it was, as far as the wire
can say it: the codec of a known number gets its name, and the largest capacity of a default channel
means that there is no limit.  What was read is written as the same bytes again.

The texts have to be without NUL bytes, which is what the check of metadata asks for.

## Main results

* `decode_encode`: what is read when a channel is written, whatever comes after it.
* `decodeWhole_encode`: a written channel is read back.
* `encode_carried`: what was read is written as the same bytes.
* `drain_frames`: a stream of frames is read back channel by channel.
-/

namespace ChannelServer

/-! ## What the wire can say -/

/-- The metadata as it comes over the wire. -/
def Metadata.carried (info : Metadata) : Metadata :=
  { info with
    codec := .ofNumber info.codec.number
    capacity := .ofWord info.capacity.toWord info.flags }

/-- The known codecs stand in the order of their numbers. -/
theorem Codec.number_known (i : Fin Codec.known.length) : Codec.known[i].number.toNat = i := by
  revert i
  decide

/-- The codec that a number stands for has this number. -/
theorem Codec.number_ofNumber (n : UInt16) : (Codec.ofNumber n).number = n := by
  by_cases h : n.toNat < Codec.known.length
  · have hget : Codec.ofNumber n = Codec.known[n.toNat] := by
      rw [Codec.ofNumber, List.getElem?_eq_getElem h, Option.getD_some]
    rw [hget, ← UInt16.toNat_inj]
    exact number_known ⟨n.toNat, h⟩
  · rw [Codec.ofNumber, List.getElem?_eq_none (Nat.le_of_not_lt h), Option.getD_none, Codec.number]

/-- The codec under the name of its number, if the number has one. -/
def Codec.named : Codec → Codec
  | .unknown n => .ofNumber n
  | codec => codec

theorem Codec.ofNumber_number (codec : Codec) : Codec.ofNumber codec.number = codec.named := by
  cases codec <;> rfl

/-- Only the thirteen numbers from 0 to 12 have a name. -/
theorem Codec.named_eq_self_iff {codec : Codec} :
    codec.named = codec ↔ ∀ n, codec = .unknown n → 12 < n.toNat := by
  cases codec with
  | unknown n =>
      have hlength : Codec.known.length = 13 := rfl
      constructor
      · rintro hsame m ⟨⟩
        refine Nat.lt_of_not_le fun hsmall => ?_
        have hindex : n.toNat < Codec.known.length := by omega
        have hknown : ∀ codec ∈ Codec.known, codec ≠ .unknown n := by simp [Codec.known]
        rw [named, ofNumber, List.getElem?_eq_getElem hindex] at hsame
        exact hknown _ (List.getElem_mem hindex) hsame
      · intro hlarge
        have hindex : Codec.known.length ≤ n.toNat := by
          have := hlarge n rfl
          omega
        rw [named, ofNumber, List.getElem?_eq_none hindex, Option.getD_none]
  | _ => exact iff_of_true rfl fun n hn => nomatch hn

theorem Capacity.toWord_ofWord (word : UInt16) (flags : Flags) :
    (Capacity.ofWord word flags).toWord = word := by
  unfold Capacity.ofWord
  split
  · rename_i h
    exact h.1.symm
  · rfl

/-- Only the largest limit of a default channel is read as another capacity. -/
theorem Capacity.ofWord_toWord {capacity : Capacity} {flags : Flags}
    (h : capacity = .unbounded → flags.has .default = true) :
    Capacity.ofWord capacity.toWord flags =
      if flags.has .default = true ∧ capacity = .limited unboundedWord then .unbounded
      else capacity := by
  cases capacity with
  | unbounded =>
      have hdefault := h rfl
      rw [if_neg (by simp)]
      exact if_pos ⟨rfl, hdefault⟩
  | limited max =>
      by_cases hlargest : max = unboundedWord ∧ flags.has .default = true
      · rw [toWord, ofWord, if_pos hlargest, if_pos ⟨hlargest.2, congrArg limited hlargest.1⟩]
      · rw [toWord, ofWord, if_neg hlargest,
          if_neg fun h => hlargest ⟨limited.inj h.2, h.1⟩]

namespace Metadata

variable {info : Metadata}

/-- Whatever comes over the wire is valid if its texts are. -/
theorem check_carried (h : info.check = .ok ()) : info.carried.check = .ok () := by
  obtain ⟨htexts, -⟩ := check_eq_ok.mp h
  refine check_eq_ok.mpr ⟨fun field => ?_, fun hunbounded => ?_⟩
  · cases field
    · exact htexts .name
    · exact htexts .topic
    · exact htexts .description
  · simp only [carried, Capacity.ofWord] at hunbounded
    split at hunbounded
    · rename_i hdefault
      exact hdefault.2
    · cases hunbounded

/-- Only a default channel with the largest capacity comes back with another capacity. -/
theorem carried_eq (h : info.check = .ok ()) {n : UInt16} (hcodec : info.codec = .ofNumber n) :
    info.carried =
      if info.flags.has .default = true ∧ info.capacity = .limited Capacity.unboundedWord then
        { info with capacity := .unbounded }
      else info := by
  have hnumber : Codec.ofNumber info.codec.number = info.codec := by
    rw [hcodec, Codec.number_ofNumber]
  rw [carried, hnumber, Capacity.ofWord_toWord (check_eq_ok.mp h).2]
  split <;> rfl

end Metadata

/-! ## Texts -/

theorem Text.toByteArray_bytes (text : String) :
    (Text.bytes text).toByteArray = text.toByteArray := by
  apply ByteArray.ext
  rw [List.data_toByteArray, Text.bytes, Array.toArray_toList]

/-- Reading what was written gives the text back. -/
theorem Text.decode_bytes (text : String) : Text.decode (Text.bytes text) = .ok text := by
  have hread : String.fromUTF8? text.toByteArray = some text := by
    rw [String.fromUTF8?, dif_pos text.isValidUTF8]
    rfl
  rw [Text.decode, Text.toByteArray_bytes, hread]

theorem Text.length_bytes (text : String) : (Text.bytes text).length = text.utf8ByteSize := rfl

namespace Wire

theorem length_encodeText (text : String) :
    (encodeText text).length = text.utf8ByteSize + 1 := by
  rw [encodeText, List.length_append, Text.length_bytes, List.length_singleton]

/-- A text is read up to its terminator if enough bytes come after it. -/
theorem decodeText_encodeText (field : Field) {reserve : Nat} {text : String}
    (hwritable : Metadata.Writable text) {rest : List UInt8} (hreserve : reserve ≤ rest.length) :
    decodeText field reserve (encodeText text ++ rest) = .ok (text, rest) := by
  have hinput : encodeText text ++ rest = Text.bytes text ++ 0 :: rest := by
    rw [encodeText, List.append_assoc, List.singleton_append]
  have hwindow : (Text.bytes text ++ 0 :: rest).take
        ((Text.bytes text ++ 0 :: rest).length - reserve) =
      Text.bytes text ++ 0 :: rest.take (rest.length - reserve) := by
    have hlength : (Text.bytes text ++ 0 :: rest).length - reserve =
        (Text.bytes text).length + (rest.length - reserve + 1) := by
      rw [List.length_append, List.length_cons]
      omega
    rw [hlength, List.take_length_add_append, List.take_succ_cons]
  have hcontent : (Text.bytes text ++ 0 :: rest.take (rest.length - reserve)).takeWhile (· != 0) =
      Text.bytes text := by
    have hall : ∀ b ∈ Text.bytes text, (b != 0) = true := by
      intro b hb
      rw [bne_iff_ne]
      rintro rfl
      exact hwritable hb
    rw [List.takeWhile_append_of_pos hall]
    simp
  have hlonger : ¬ (Text.bytes text).length =
      (Text.bytes text ++ 0 :: rest.take (rest.length - reserve)).length := by
    rw [List.length_append, List.length_cons]
    omega
  have hdrop : (Text.bytes text ++ 0 :: rest).drop ((Text.bytes text).length + 1) = rest := by
    rw [List.drop_length_add_append]
    rfl
  rw [hinput]
  simp only [decodeText, hwindow, hcontent, if_neg hlonger, Text.decode_bytes, hdrop]

/-! ## Channels -/

theorem length_encode_header (header : Header) : header.encode.length = Header.size := rfl

theorem decode?_encode_header (header : Header) (rest : List UInt8) :
    Header.decode? (header.encode ++ rest) = some (header, rest) := by
  simp only [Header.encode, word16, word32, List.cons_append, List.nil_append, Header.decode?,
    joinWord16_bytes, joinWord32_bytes]

namespace Entry

variable {entry : Entry}

/-- A channel as it comes over the wire. -/
def carried (entry : Entry) : Entry := { entry with info := entry.info.carried }

/-- The bytes of a channel are as many as is said in advance. -/
theorem length_encode (entry : Entry) : entry.encode.length = encodedSize entry.info := by
  simp only [encode, List.length_append, length_encode_header, length_encodeText, encodedSize]

/-- The channel that is read when a channel is written: the reserved id is no parent, a codec has
the name of its number, and the largest limit of a default channel is no limit. -/
def received (entry : Entry) : Entry :=
  { entry with
    parent := if entry.parent = some .reserved then none else entry.parent
    info :=
      { entry.info with
        codec := entry.info.codec.named
        capacity :=
          if entry.info.flags.has .default = true ∧
              entry.info.capacity = .limited Capacity.unboundedWord then .unbounded
          else entry.info.capacity } }

theorem ofParts_header (hvalid : entry.info.check = .ok ()) :
    ofParts entry.header entry.info.name entry.info.topic entry.info.description =
      entry.received := by
  have hparent : (if entry.header.parent = ChannelId.reserved.value then none
      else some ⟨entry.header.parent⟩) =
        if entry.parent = some .reserved then none else entry.parent := by
    rw [header]
    cases entry.parent with
    | none => rfl
    | some parent =>
        have hvalue : parent.value = ChannelId.reserved.value ↔
            some parent = some ChannelId.reserved := by
          cases parent
          simp [ChannelId.reserved]
        simp only [Option.getD_some, hvalue]
  have hcapacity := Capacity.ofWord_toWord (Metadata.check_eq_ok.mp hvalid).2
  rw [ofParts, hparent, received, ← Codec.ofNumber_number, ← hcapacity]
  rfl

/-- A header and three texts without NUL bytes are read as the channel that they make up, whatever
comes after them. -/
theorem decode_parts (header : Header) {name topic description : String}
    (hname : Metadata.Writable name) (htopic : Metadata.Writable topic)
    (hdescription : Metadata.Writable description) (rest : List UInt8) :
    decode (header.encode ++ encodeText name ++ encodeText topic ++ encodeText description ++
        rest) =
      .ok (ofParts header name topic description, rest) := by
  let afterTopic := encodeText description ++ rest
  let afterName := encodeText topic ++ afterTopic
  have hinput : header.encode ++ encodeText name ++ encodeText topic ++ encodeText description ++
      rest = header.encode ++ (encodeText name ++ afterName) := by
    simp only [afterName, afterTopic, List.append_assoc]
  have hlong : ¬ (header.encode ++ (encodeText name ++ afterName)).length < minimumSize := by
    simp only [afterName, afterTopic, List.length_append, length_encode_header, length_encodeText,
      minimumSize]
    omega
  -- Behind each text there is room for the terminators of the texts after it.
  have hroom : 1 ≤ afterTopic.length ∧ 2 ≤ afterName.length := by
    simp only [afterName, afterTopic, List.length_append, length_encodeText]
    omega
  have hname' : decodeText .name 2 (encodeText name ++ afterName) = .ok (name, afterName) :=
    decodeText_encodeText .name hname hroom.2
  have htopic' : decodeText .topic 1 afterName = .ok (topic, afterTopic) :=
    decodeText_encodeText .topic htopic hroom.1
  have hdescription' : decodeText .description 0 afterTopic = .ok (description, rest) :=
    decodeText_encodeText .description hdescription (Nat.zero_le _)
  rw [hinput]
  simp only [decode, if_neg hlong, decode?_encode_header, hname', htopic', hdescription', bind,
    Except.bind, pure, Except.pure]

/-- A written channel is read back, and the bytes after it are left. -/
theorem decode_encode (hvalid : entry.info.check = .ok ()) (rest : List UInt8) :
    decode (entry.encode ++ rest) = .ok (entry.received, rest) := by
  obtain ⟨htexts, -⟩ := Metadata.check_eq_ok.mp hvalid
  rw [← ofParts_header hvalid]
  exact decode_parts entry.header (htexts .name) (htexts .topic) (htexts .description) rest

theorem received_eq_carried (hvalid : entry.info.check = .ok ())
    (hparent : entry.parent ≠ some .reserved) : entry.received = entry.carried := by
  have hcapacity := Capacity.ofWord_toWord (Metadata.check_eq_ok.mp hvalid).2
  rw [received, if_neg hparent, ← Codec.ofNumber_number, ← hcapacity]
  rfl

/-- A written channel is read back when there is nothing else. -/
theorem decodeWhole_encode (hvalid : entry.info.check = .ok ()) :
    decodeWhole entry.encode = .ok entry.received := by
  have hdecode := decode_encode hvalid []
  rw [List.append_nil] at hdecode
  rw [decodeWhole, hdecode]
  rfl

/-- What was read is written as the same bytes again. -/
theorem encode_carried (entry : Entry) : entry.carried.encode = entry.encode := by
  have hheader : entry.carried.header = entry.header := by
    simp only [header, carried, Metadata.carried, Codec.number_ofNumber, Capacity.toWord_ofWord]
  rw [encode, hheader]
  rfl

end Entry

/-! ## Frames -/

theorem frame_carried (limit : Nat) (entry : Entry) :
    frame limit entry.carried = frame limit entry := by
  have hsize : encodedSize entry.carried.info = encodedSize entry.info := rfl
  rw [frame, frame, hsize, Entry.encode_carried]

theorem frames_carried (limit : Nat) (entries : List Entry) :
    frames limit (entries.map Entry.carried) = frames limit entries := by
  induction entries with
  | nil => rfl
  | cons entry entries ih =>
      rw [List.map_cons, frames, frames, frame_carried, ih]
      rfl

/-- A channel that fits is written as a frame of its bytes. -/
theorem frame_eq_ok {limit : Nat} {entry : Entry} {bytes : List UInt8} :
    frame limit entry = .ok bytes ↔
      encodedSize entry.info ≤ limit ∧ bytes = framed entry.encode := by
  have hframed : framed entry.encode = lengthField (encodedSize entry.info) ++ entry.encode := by
    rw [framed, entry.length_encode]
  rw [frame, hframed]
  split
  · rename_i hbeyond
    exact iff_of_false (by rintro ⟨⟩) fun h => absurd h.1 (Nat.not_le.mpr hbeyond)
  · rename_i hfits
    rw [Except.ok.injEq, and_iff_right (Nat.le_of_not_lt hfits)]
    exact eq_comm

/-- Channels are written as a stream of their frames, provided that all of them fit. -/
theorem frames_eq_ok {limit : Nat} {entries : List Entry} {stream : List UInt8} :
    frames limit entries = .ok stream ↔
      (∀ entry ∈ entries, encodedSize entry.info ≤ limit) ∧
        stream = (entries.map Entry.encode).flatMap framed := by
  induction entries generalizing stream with
  | nil => simp [frames, eq_comm]
  | cons entry entries ih =>
      rw [frames, List.forall_mem_cons, List.map_cons, List.flatMap_cons]
      cases hframe : frame limit entry with
      | error fault =>
          refine iff_of_false nofun fun h => ?_
          rw [frame_eq_ok.mpr ⟨h.1.1, rfl⟩] at hframe
          cases hframe
      | ok bytes =>
          obtain ⟨hfits, rfl⟩ := frame_eq_ok.mp hframe
          rw [and_iff_right hfits]
          cases hrest : frames limit entries with
          | error fault =>
              refine iff_of_false nofun fun h => ?_
              rw [ih.mpr ⟨h.1, rfl⟩] at hrest
              cases hrest
          | ok rest =>
              obtain ⟨hall, rfl⟩ := ih.mp hrest
              rw [and_iff_right hall]
              simp only [Except.map, Except.ok.injEq]
              exact eq_comm

/-- A stream can be written exactly if every channel fits into a frame. -/
theorem exists_frames_iff {limit : Nat} {entries : List Entry} :
    (∃ stream, frames limit entries = .ok stream) ↔
      ∀ entry ∈ entries, encodedSize entry.info ≤ limit := by
  simp only [frames_eq_ok, exists_and_left, exists_eq, and_true]

/-- A stream of frames is read back channel by channel, and nothing is left. -/
theorem drain_frames {limit : Nat} (hlimit : limit < UInt32.size) {entries : List Entry}
    (hvalid : ∀ entry ∈ entries, entry.info.check = .ok ()) {stream : List UInt8}
    (hstream : frames limit entries = .ok stream) :
    drain limit stream = ⟨entries.map (.ok ·.received), [], none⟩ := by
  obtain ⟨hfits, rfl⟩ := frames_eq_ok.mp hstream
  have hshort : ∀ payload ∈ entries.map Entry.encode, payload.length ≤ limit := by
    rw [List.forall_mem_map]
    intro entry hentry
    rw [entry.length_encode]
    exact hfits entry hentry
  have hdrain := drain_append_framed hlimit hshort (.inl (by decide : [].length < 4))
  have hread : ∀ entry ∈ entries, Entry.decodeWhole entry.encode = .ok entry.received :=
    fun entry hentry => Entry.decodeWhole_encode (hvalid entry hentry)
  rw [List.append_nil, List.map_map] at hdrain
  rw [hdrain]
  congr 1
  exact List.map_congr_left hread

end Wire

end ChannelServer
