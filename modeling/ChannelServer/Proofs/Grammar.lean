import ChannelServer.Proofs.RoundTrip

/-!
# The written form of a channel

Which bytes begin with a channel is said here without reading them: a header of sixteen bytes, three
texts in UTF-8 without NUL bytes, each with a NUL byte behind it, and then anything.  Reading
succeeds for these bytes and for no others, and it stops behind the third terminator.

The reader looks for the end of a text in a window without the last two bytes, the last byte or
none.  By `decodeText_eq_ok` the window only asks for as many bytes behind the text as there are
texts to come, and these have at least a terminator each.

What was read is written as the same bytes, whatever they are.  The converse holds up to three
things that the wire says in two ways, and `Plain` names the channels that none of them is about.

## Main results

* `decode_eq_ok`: what is read is made up of a header and three texts.
* `decode_iff_spells`: reading accepts exactly the written form, and writing gives it back.
* `decode_encode_append`: what is read of a written channel, and when it is the channel itself.
* `drain_stream`: streams of frames with any payloads, and streams of written channels.
-/

namespace ChannelServer

/-! ## Texts -/

namespace Text

/-- The bytes of a text, without its terminator. -/
structure IsContent (content : List UInt8) : Prop where
  nulFree : 0 ∉ content
  utf8 : content.toByteArray.IsValidUTF8

theorem bytes_fromUTF8 {content : List UInt8} (h : content.toByteArray.IsValidUTF8) :
    bytes (String.fromUTF8 content.toByteArray h) = content := by
  show content.toByteArray.data.toList = content
  rw [List.data_toByteArray]

/-- Bytes are read as the text that they are the bytes of. -/
theorem decode_eq_ok {content : List UInt8} {text : String} :
    decode content = .ok text ↔ bytes text = content := by
  constructor
  · intro h
    unfold decode String.fromUTF8? at h
    by_cases hutf8 : content.toByteArray.IsValidUTF8
    · rw [dif_pos hutf8] at h
      cases h
      exact bytes_fromUTF8 hutf8
    · rw [dif_neg hutf8] at h
      cases h
  · rintro rfl
    exact decode_bytes text

theorem isContent_iff {content : List UInt8} :
    IsContent content ↔ ∃ text, Metadata.Writable text ∧ bytes text = content := by
  constructor
  · rintro ⟨hnul, hutf8⟩
    have hbytes := bytes_fromUTF8 hutf8
    refine ⟨String.fromUTF8 content.toByteArray hutf8, ?_, hbytes⟩
    rw [Metadata.Writable, hbytes]
    exact hnul
  · rintro ⟨text, hwritable, rfl⟩
    refine ⟨hwritable, ?_⟩
    rw [toByteArray_bytes]
    exact text.isValidUTF8

/-- What stands before the first NUL byte has none. -/
theorem nul_notMem_takeWhile (input : List UInt8) : 0 ∉ input.takeWhile (· != 0) := by
  intro hmem
  have hall := List.all_eq_true.mp (List.all_takeWhile (p := (· != 0)) (l := input)) 0 hmem
  exact absurd hall (by decide)

/-- Bytes that do not end before the first NUL byte have one. -/
theorem exists_terminator {input : List UInt8}
    (h : (input.takeWhile (· != 0)).length ≠ input.length) :
    ∃ rest, input = input.takeWhile (· != 0) ++ 0 :: rest := by
  induction input with
  | nil => exact absurd rfl h
  | cons b input ih =>
      by_cases hb : b = 0
      · subst hb
        exact ⟨input, rfl⟩
      · have hcons : (b :: input).takeWhile (· != 0) = b :: input.takeWhile (· != 0) :=
          List.takeWhile_cons_of_pos (bne_iff_ne.mpr hb)
        rw [hcons] at h ⊢
        obtain ⟨rest, hrest⟩ := ih fun hsame => h (congrArg Nat.succ hsame)
        exact ⟨rest, congrArg (b :: ·) hrest⟩

/-- A terminator that stands in the input without its last bytes has these bytes behind it. -/
theorem exists_rest_of_take {reserve : Nat} {input content left : List UInt8}
    (h : input.take (input.length - reserve) = content ++ 0 :: left) :
    ∃ rest, input = content ++ 0 :: rest ∧ reserve ≤ rest.length := by
  have hsplit := List.take_append_drop (input.length - reserve) input
  rw [h, List.append_assoc, List.cons_append] at hsplit
  have hlength := congrArg List.length h
  refine ⟨left ++ input.drop (input.length - reserve), hsplit.symm, ?_⟩
  simp only [List.length_take, List.length_append, List.length_cons, List.length_drop]
    at hlength ⊢
  omega

end Text

namespace Wire

/-- Reading finds a text exactly where one was written and enough bytes come after it. -/
theorem decodeText_eq_ok {field : Field} {reserve : Nat} {input rest : List UInt8}
    {text : String} :
    decodeText field reserve input = .ok (text, rest) ↔
      Metadata.Writable text ∧ reserve ≤ rest.length ∧ input = encodeText text ++ rest := by
  constructor
  · intro h
    simp only [decodeText] at h
    generalize hwindow : input.take (input.length - reserve) = window at h
    split at h
    · cases h
    · rename_i hends
      have hnul := Text.nul_notMem_takeWhile window
      obtain ⟨left, hleft⟩ := Text.exists_terminator hends
      generalize window.takeWhile (· != 0) = content at h hleft hnul
      obtain ⟨rest', rfl, hreserve⟩ := Text.exists_rest_of_take (hwindow.trans hleft)
      cases hdecode : Text.decode content with
      | error fault =>
          rw [hdecode] at h
          cases h
      | ok found =>
          have hbytes := Text.decode_eq_ok.mp hdecode
          have hdrop : (content ++ 0 :: rest').drop (content.length + 1) = rest' := by
            rw [List.drop_length_add_append]
            rfl
          rw [hdecode, hdrop] at h
          cases h
          refine ⟨?_, hreserve, ?_⟩
          · rwa [Metadata.Writable, hbytes]
          · rw [encodeText, hbytes, List.append_assoc]
            rfl
  · rintro ⟨hwritable, hreserve, rfl⟩
    exact decodeText_encodeText field hwritable hreserve

/-! ## Headers -/

/-- A header is read from its own sixteen bytes and from no others. -/
theorem Header.decode?_eq_some {header : Header} {input texts : List UInt8} :
    Header.decode? input = some (header, texts) ↔ input = header.encode ++ texts := by
  constructor
  · intro h
    unfold Header.decode? at h
    split at h
    · cases h
      simp only [Header.encode, word16_join, word32_join, List.cons_append, List.nil_append]
    · cases h
  · rintro rfl
    exact decode?_encode_header header texts

/-- Sixteen bytes are a header, whatever they are. -/
theorem Header.exists_encode {header : List UInt8} (hlength : header.length = Header.size) :
    ∃ fields : Header, fields.encode = header := by
  match header, hlength with
  | [i₃, i₂, i₁, i₀, f₁, f₀, c₁, c₀, p₃, p₂, p₁, p₀, s₁, s₀, m₁, m₀], _ =>
    have hread := (@Header.decode?_eq_some _ _ []).mp
      (rfl : Header.decode? [i₃, i₂, i₁, i₀, f₁, f₀, c₁, c₀, p₃, p₂, p₁, p₀, s₁, s₀, m₁, m₀] = _)
    exact ⟨_, by rw [hread, List.append_nil]⟩

/-! ## What reading accepts -/

theorem decodeText_cases (field : Field) (reserve : Nat) (input : List UInt8) :
    (∃ cause, decodeText field reserve input = .error (.badInput cause)) ∨
      ∃ text rest, decodeText field reserve input = .ok (text, rest) := by
  simp only [decodeText]
  split
  · exact .inl ⟨_, rfl⟩
  · split
    · exact .inr ⟨_, _, rfl⟩
    · exact .inl ⟨_, rfl⟩

namespace Entry

/-- Input is refused as bad, or it begins with a header and three texts without NUL bytes. -/
theorem decode_cases (input : List UInt8) :
    (∃ cause, decode input = .error (.badInput cause)) ∨
      ∃ (header : Header) (name topic description : String) (rest : List UInt8),
        Metadata.Writable name ∧ Metadata.Writable topic ∧ Metadata.Writable description ∧
        input = header.encode ++ encodeText name ++ encodeText topic ++ encodeText description ++
          rest := by
  by_cases hshort : input.length < minimumSize
  · exact .inl ⟨_, if_pos hshort⟩
  simp only [decode, if_neg hshort]
  cases hheader : Header.decode? input with
  | none => exact .inl ⟨_, rfl⟩
  | some parts =>
      obtain ⟨header, texts⟩ := parts
      obtain ⟨cause, hname⟩ | ⟨name, afterName, hname⟩ := decodeText_cases .name 2 texts
      · exact .inl ⟨cause, by simp only [hname, bind, Except.bind]⟩
      obtain ⟨cause, htopic⟩ | ⟨topic, afterTopic, htopic⟩ := decodeText_cases .topic 1 afterName
      · exact .inl ⟨cause, by simp only [hname, htopic, bind, Except.bind]⟩
      obtain ⟨cause, hdescription⟩ | ⟨description, rest, hdescription⟩ :=
        decodeText_cases .description 0 afterTopic
      · exact .inl ⟨cause, by simp only [hname, htopic, hdescription, bind, Except.bind]⟩
      obtain ⟨hwritable, -, rfl⟩ := decodeText_eq_ok.mp hname
      obtain ⟨hwritable', -, rfl⟩ := decodeText_eq_ok.mp htopic
      obtain ⟨hwritable'', -, rfl⟩ := decodeText_eq_ok.mp hdescription
      refine .inr ⟨header, name, topic, description, rest, hwritable, hwritable', hwritable'', ?_⟩
      rw [Header.decode?_eq_some.mp hheader]
      simp only [List.append_assoc]

/-- Reading finds a channel exactly where a header and three texts without NUL bytes stand. -/
theorem decode_eq_ok {input rest : List UInt8} {entry : Entry} :
    decode input = .ok (entry, rest) ↔ ∃ header name topic description,
      Metadata.Writable name ∧ Metadata.Writable topic ∧ Metadata.Writable description ∧
      entry = ofParts header name topic description ∧
      input = header.encode ++ encodeText name ++ encodeText topic ++ encodeText description ++
        rest := by
  constructor
  · intro h
    obtain ⟨cause, hrefused⟩ | ⟨header, name, topic, description, rest', hname, htopic,
      hdescription, rfl⟩ := decode_cases input
    · rw [hrefused] at h
      cases h
    · rw [decode_parts header hname htopic hdescription] at h
      cases h
      exact ⟨header, name, topic, description, hname, htopic, hdescription, rfl, rfl⟩
  · rintro ⟨header, name, topic, description, hname, htopic, hdescription, rfl, rfl⟩
    exact decode_parts header hname htopic hdescription rest

/-- A header and three texts are written as they were read, also where the reader has no name for
what they say. -/
theorem encode_ofParts (header : Header) (name topic description : String) :
    (ofParts header name topic description).encode =
      header.encode ++ encodeText name ++ encodeText topic ++ encodeText description := by
  have hparent : (((if header.parent = ChannelId.reserved.value then none
      else some ⟨header.parent⟩) : Option ChannelId).getD .reserved).value = header.parent := by
    split
    · rename_i hreserved
      exact hreserved.symm
    · rfl
  have hheader : (ofParts header name topic description).header = header := by
    simp only [Entry.header, ofParts, Codec.number_ofNumber, Capacity.toWord_ofWord, hparent]
  rw [encode, hheader]
  rfl

end Entry

/-! ## The written form -/

/-- The bytes of a channel and what comes after them: a header, three texts, each with a NUL byte
behind it, and anything. -/
structure Spells (input header name topic description rest : List UInt8) : Prop where
  size_header : header.length = Header.size
  content_name : Text.IsContent name
  content_topic : Text.IsContent topic
  content_description : Text.IsContent description
  parts : input = header ++ name ++ [0] ++ topic ++ [0] ++ description ++ [0] ++ rest

/-- The written form in terms of headers and texts. -/
theorem exists_spells_iff {input rest : List UInt8} :
    (∃ header name topic description, Spells input header name topic description rest) ↔
      ∃ (header : Header) (name topic description : String),
        Metadata.Writable name ∧ Metadata.Writable topic ∧ Metadata.Writable description ∧
        input = header.encode ++ encodeText name ++ encodeText topic ++ encodeText description ++
          rest := by
  constructor
  · rintro ⟨header, name, topic, description, h⟩
    obtain ⟨fields, rfl⟩ := Header.exists_encode h.size_header
    obtain ⟨nameText, hname, rfl⟩ := Text.isContent_iff.mp h.content_name
    obtain ⟨topicText, htopic, rfl⟩ := Text.isContent_iff.mp h.content_topic
    obtain ⟨descriptionText, hdescription, rfl⟩ := Text.isContent_iff.mp h.content_description
    refine ⟨fields, nameText, topicText, descriptionText, hname, htopic, hdescription, ?_⟩
    simpa only [encodeText, List.append_assoc] using h.parts
  · rintro ⟨header, name, topic, description, hname, htopic, hdescription, rfl⟩
    refine ⟨header.encode, Text.bytes name, Text.bytes topic, Text.bytes description,
      length_encode_header header, Text.isContent_iff.mpr ⟨name, hname, rfl⟩,
      Text.isContent_iff.mpr ⟨topic, htopic, rfl⟩,
      Text.isContent_iff.mpr ⟨description, hdescription, rfl⟩, ?_⟩
    simp only [encodeText, List.append_assoc]

namespace Entry

/-- Reading accepts the written form of a channel and nothing else, and stops at its end.  What was
read is written as the same bytes, and the bytes after them do not matter. -/
theorem decode_iff_spells (input : List UInt8) :
    (∀ rest, (∃ entry, decode input = .ok (entry, rest)) ↔
      ∃ header name topic description, Spells input header name topic description rest) ∧
    ((¬ ∃ rest header name topic description, Spells input header name topic description rest) →
      ∃ cause, decode input = .error (.badInput cause)) ∧
    ∀ entry rest, decode input = .ok (entry, rest) →
      entry.encode ++ rest = input ∧ entry.encode.length = encodedSize entry.info ∧
      ∀ other, decode (entry.encode ++ other) = .ok (entry, other) := by
  refine ⟨fun rest => ?_, fun hnone => ?_, fun entry rest h => ?_⟩
  · rw [exists_spells_iff]
    constructor
    · rintro ⟨entry, h⟩
      obtain ⟨header, name, topic, description, hname, htopic, hdescription, -, hinput⟩ :=
        decode_eq_ok.mp h
      exact ⟨header, name, topic, description, hname, htopic, hdescription, hinput⟩
    · rintro ⟨header, name, topic, description, hname, htopic, hdescription, rfl⟩
      exact ⟨_, decode_parts header hname htopic hdescription rest⟩
  · obtain hrefused | ⟨header, name, topic, description, rest, hparts⟩ := decode_cases input
    · exact hrefused
    · exact absurd ⟨rest, exists_spells_iff.mpr ⟨header, name, topic, description, hparts⟩⟩ hnone
  · obtain ⟨header, name, topic, description, hname, htopic, hdescription, rfl, rfl⟩ :=
      decode_eq_ok.mp h
    have hencode := encode_ofParts header name topic description
    refine ⟨by rw [hencode], length_encode _, fun other => ?_⟩
    rw [hencode]
    exact decode_parts header hname htopic hdescription other

/-- Flags and a codec without names, the largest capacity and a name that is not ASCII, with two
bytes behind the channel. -/
theorem decode_iff_spells_unnamed :
    let header : List UInt8 := [0, 0, 0, 7, 255, 255, 0, 77, 255, 255, 255, 255, 0, 1, 255, 255]
    let written := header ++ [0xC3, 0xA4] ++ [0] ++ [] ++ [0] ++ [65] ++ [0]
    ∃ entry, decode (written ++ [0, 255]) = .ok (entry, [0, 255]) ∧ entry.encode = written ∧
      encodedSize entry.info = 22 ∧ ∀ other, decode (written ++ other) = .ok (entry, other) := by
  intro header written
  obtain ⟨haccepts, -, hread⟩ := decode_iff_spells (written ++ [0, 255])
  have hname : Text.IsContent [0xC3, 0xA4] := ⟨by decide, by decide⟩
  have htopic : Text.IsContent [] := ⟨by decide, by decide⟩
  have hdescription : Text.IsContent [65] := ⟨by decide, by decide⟩
  obtain ⟨entry, hentry⟩ := (haccepts [0, 255]).mpr
    ⟨header, [0xC3, 0xA4], [], [65], rfl, hname, htopic, hdescription, rfl⟩
  obtain ⟨hbytes, hsize, hother⟩ := hread entry [0, 255] hentry
  have hwritten : entry.encode = written := List.append_cancel_right hbytes
  rw [hwritten] at hsize hother
  exact ⟨entry, hentry, hwritten, hsize.symm, hother⟩

/-! ## Reading back a written channel -/

/-- The channels that the wire says in one way only. -/
structure Plain (entry : Entry) : Prop where
  parent : entry.parent ≠ some .reserved
  codec : ∀ n, entry.info.codec = .unknown n → 12 < n.toNat
  capacity : entry.info.flags.has .default = true →
    entry.info.capacity ≠ .limited Capacity.unboundedWord

/-- A channel comes back unchanged exactly if the wire says it in one way only. -/
theorem received_eq_self_iff (entry : Entry) : entry.received = entry ↔ entry.Plain := by
  have hparent : (if entry.parent = some .reserved then none else entry.parent) = entry.parent ↔
      entry.parent ≠ some .reserved := by
    split
    · rename_i hreserved
      simp [hreserved]
    · rename_i hother
      exact iff_of_true rfl hother
  have hcapacity : (if entry.info.flags.has .default = true ∧
        entry.info.capacity = .limited Capacity.unboundedWord then Capacity.unbounded
      else entry.info.capacity) = entry.info.capacity ↔
      (entry.info.flags.has .default = true →
        entry.info.capacity ≠ .limited Capacity.unboundedWord) := by
    rw [← not_and]
    split
    · rename_i hlargest
      refine iff_of_false (fun hsame => ?_) (not_not_intro hlargest)
      exact nomatch hsame.trans hlargest.2
    · rename_i hother
      exact iff_of_true rfl hother
  constructor
  · intro hsame
    refine ⟨hparent.mp (congrArg Entry.parent hsame), ?_, ?_⟩
    · exact Codec.named_eq_self_iff.mp (congrArg (·.info.codec) hsame)
    · exact hcapacity.mp (congrArg (·.info.capacity) hsame)
  · intro hplain
    rw [received, hparent.mpr hplain.parent, hcapacity.mpr hplain.capacity,
      Codec.named_eq_self_iff.mpr hplain.codec]

/-- A valid channel is written as many bytes as said in advance, and read back up to the three
things that the wire says in two ways.  Channels that none of these is about have different
bytes. -/
theorem decode_encode_append {entry : Entry} (hvalid : entry.info.check = .ok ()) :
    entry.encode.length = encodedSize entry.info ∧
    (∀ rest, decode (entry.encode ++ rest) = .ok (entry.received, rest)) ∧
    (entry.received = entry ↔ entry.Plain) ∧
    ∀ other : Entry, other.info.check = .ok () → entry.Plain → other.Plain →
      other.encode = entry.encode → other = entry := by
  refine ⟨entry.length_encode, decode_encode hvalid, entry.received_eq_self_iff, ?_⟩
  intro other hother hplain hplain' hsame
  have hread := decode_encode hvalid []
  rw [← hsame, decode_encode hother [], (received_eq_self_iff other).mpr hplain',
    entry.received_eq_self_iff.mpr hplain] at hread
  cases hread
  rfl

/-- All three things at once: the channel comes back without a parent and without a limit, and its
codec has a name. -/
theorem decode_encode_append_of_lobby :
    let lobby : Metadata :=
      { Metadata.preset with
        name := "Eingangshalle für Gäste"
        flags := .default
        codec := .unknown 3
        capacity := .limited 65535 }
    let entry : Entry := ⟨⟨7⟩, some .reserved, lobby⟩
    let entry' : Entry := ⟨⟨7⟩, none, { lobby with codec := .gsm16_4, capacity := .unbounded }⟩
    lobby.check = .ok () ∧ decode (entry.encode ++ [0, 255]) = .ok (entry', [0, 255]) ∧
      ¬ entry.Plain := by
  intro lobby entry entry'
  have hvalid : lobby.check = .ok () := rfl
  have hreceived : entry.received = entry' := by decide
  obtain ⟨-, hread, hplain, -⟩ := @decode_encode_append entry hvalid
  rw [hreceived] at hread hplain
  exact ⟨hvalid, hread [0, 255], fun h => absurd (hplain.mpr h) (by decide)⟩

/-- A payload holds a channel exactly if it is the written form of one that can be read. -/
theorem decodeWhole_eq_ok {payload : List UInt8} {entry : Entry} :
    decodeWhole payload = .ok entry ↔
      payload = entry.encode ∧ ∃ input rest, decode input = .ok (entry, rest) := by
  have hwhole {found : Entry} {rest : List UInt8} (h : decode payload = .ok (found, rest)) :
      decodeWhole payload =
        if rest.isEmpty then .ok found
        else .error (.badInput (.trailing rest.length found.id)) := by
    simp only [decodeWhole, h, bind, Except.bind]
    rfl
  constructor
  · intro h
    cases hdecode : decode payload with
    | error fault =>
        simp only [decodeWhole, hdecode, bind, Except.bind] at h
        cases h
    | ok parts =>
        obtain ⟨found, rest⟩ := parts
        rw [hwhole hdecode] at h
        split at h
        · rename_i hempty
          cases h
          have hbytes := ((decode_iff_spells payload).2.2 entry rest hdecode).1
          rw [List.isEmpty_iff.mp hempty, List.append_nil] at hbytes
          exact ⟨hbytes.symm, payload, rest, hdecode⟩
        · cases h
  · rintro ⟨rfl, input, rest, hdecode⟩
    have hread := ((decode_iff_spells input).2.2 entry rest hdecode).2.2 []
    rw [List.append_nil] at hread
    rw [hwhole hread]
    rfl

end Entry

/-! ## Streams of channels -/

/-- Payloads in frames are read one by one, whatever they are, and the beginning of the next frame
is kept for later.  A payload holds a channel exactly if it is the written form of one that can be
read.  So valid channels that fit into frames come back in their order, each as it comes back alone,
and nothing is left. -/
theorem drain_stream {limit : Nat} (hlimit : limit ≤ 4294967295) :
    (∀ (payloads : List (List UInt8)) (tail : List UInt8),
      (∀ payload ∈ payloads, payload.length ≤ limit) → Unfinished limit tail →
      drain limit (payloads.flatMap framed ++ tail) =
          ⟨payloads.map Entry.decodeWhole, tail, none⟩ ∧
        nextFrame limit tail = .incomplete) ∧
    (∀ payload entry, Entry.decodeWhole payload = .ok entry ↔
      payload = entry.encode ∧ ∃ input rest, Entry.decode input = .ok (entry, rest)) ∧
    ∀ entries : List Entry, (∀ entry ∈ entries, entry.info.check = .ok ()) →
      (∀ entry ∈ entries, ∃ bytes, frame limit entry = .ok bytes) →
        ∃ stream, frames limit entries = .ok stream ∧
          drain limit stream = ⟨entries.map (.ok ·.received), [], none⟩ ∧
          ∀ entry ∈ entries, (entry.received = entry ↔ entry.Plain) := by
  have hword : limit < UInt32.size := Nat.lt_succ_of_le hlimit
  refine ⟨fun payloads tail hfits htail => ?_, fun _ _ => Entry.decodeWhole_eq_ok, ?_⟩
  · exact ⟨drain_append_framed hword hfits htail, (nextFrame_eq_incomplete hword).mpr htail⟩
  · intro entries hvalid haccepted
    have hfits : ∀ entry ∈ entries, encodedSize entry.info ≤ limit := by
      intro entry hentry
      obtain ⟨bytes, hbytes⟩ := haccepted entry hentry
      exact (frame_eq_ok.mp hbytes).1
    obtain ⟨stream, hstream⟩ := exists_frames_iff.mpr hfits
    exact ⟨stream, hstream, drain_frames hword hvalid hstream,
      fun entry _ => entry.received_eq_self_iff⟩

/-- A channel comes through between a frame that is too short, an empty one and the beginning of
another, and two channels come through when they are written, one of them without its limit. -/
theorem drain_stream_of_malformed :
    let hall : Entry :=
      ⟨⟨1⟩, none, { Metadata.preset with flags := .default, capacity := .limited 65535 }⟩
    let hall' : Entry := { hall with info := { hall.info with capacity := .unbounded } }
    let booth : Entry := ⟨⟨2⟩, some ⟨1⟩, { Metadata.preset with name := "Nische" }⟩
    drain 4096 ([[7], booth.encode, []].flatMap framed ++ [0, 0, 0, 9, 1]) =
        ⟨[.error (.badInput (.channelTooShort 1 minimumSize)), .ok booth,
          .error (.badInput (.channelTooShort 0 minimumSize))], [0, 0, 0, 9, 1], none⟩ ∧
      ∃ stream, frames 4096 [hall, booth] = .ok stream ∧
        drain 4096 stream = ⟨[.ok hall', .ok booth], [], none⟩ := by
  intro hall hall' booth
  obtain ⟨hpayloads, hholds, hentries⟩ := @drain_stream 4096 (by decide)
  have hvalid : ∀ entry ∈ [hall, booth], entry.info.check = .ok () := by
    simp only [List.forall_mem_cons]
    exact ⟨rfl, rfl, nofun⟩
  have hhall : hall.received = hall' := by decide
  have hbooth : booth.received = booth := by decide
  have hread := Entry.decode_encode (hvalid booth (by simp)) []
  rw [hbooth] at hread
  have hwhole : Entry.decodeWhole booth.encode = .ok booth :=
    (hholds _ _).mpr ⟨rfl, _, _, hread⟩
  have htail : Unfinished 4096 [0, 0, 0, 9, 1] := .inr ⟨9, [1], by decide, by decide, rfl⟩
  have hfirst := (hpayloads [[7], booth.encode, []] _ (by decide +kernel) htail).1
  obtain ⟨stream, hstream, hsecond, -⟩ := hentries [hall, booth] hvalid (by
    simp only [List.forall_mem_cons]
    exact ⟨⟨_, rfl⟩, ⟨_, rfl⟩, nofun⟩)
  simp only [List.map_cons, List.map_nil, hhall, hbooth] at hsecond
  simp only [List.map_cons, List.map_nil, hwhole] at hfirst
  exact ⟨hfirst, stream, hstream, hsecond⟩

end Wire

end ChannelServer
