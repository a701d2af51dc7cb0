import ChannelServer.Wire.Frame

/-!
# Streams of frames

A stream is made of frames, one after the other, and perhaps the beginning of another one.  What is
in a frame is of no importance to the frames around it: the reader goes on exactly where the length
field says, whether it has found a channel or not.  So a stream of any payloads is read as these
payloads, one by one, and the beginning of the next frame is kept.

The other way round, any bytes at all are such a stream, unless a length field beyond the limit ends
it earlier.  `Cut` says how a stream falls apart, and there is one cut of every stream.

Nothing is known here of channels.  Limits that do not fit into the length field are left out,
because with them a frame can be longer than its length field says.

## Main results

* `nextFrame_framed`: the front of a stream is its first payload.
* `nextFrame_cases`: the front of any bytes.
* `nextFrame_eq_incomplete`: more bytes are needed exactly at the beginning of a frame.
* `drain_append_framed`: payloads in frames are read one by one.
* `exists_cut`, `Cut.unique`: every stream has one cut.
* `drain_of_cut`: what is read of a stream is what it is cut into.
* `drainWithin_eq`: reading comes to an end one look after the last frame.
-/

namespace ChannelServer.Wire

/-- The bytes of a frame, whatever is in it. -/
def framed (payload : List UInt8) : List UInt8 :=
  lengthField payload.length ++ payload

/-- The beginning of a frame: not even a length field, or a length within the limit and fewer bytes
than it announces.  No bytes at all are the beginning of a frame, too. -/
def Unfinished (limit : Nat) (bytes : List UInt8) : Prop :=
  bytes.length < lengthFieldSize ∨
    ∃ length present, length ≤ limit ∧ present.length < length ∧
      bytes = lengthField length ++ present

/-- Where reading stops, and the oversize frame that it stops at: at the beginning of a frame, or at
a length field beyond the limit. -/
inductive Stop (limit : Nat) : List UInt8 → Option OversizeFrame → Prop where
  | unfinished {tail : List UInt8} (h : Unfinished limit tail) : Stop limit tail none
  | oversize {length : Nat} {after : List UInt8} (beyond : limit < length)
      (room : length < UInt32.size) :
      Stop limit (lengthField length ++ after) (some ⟨length, limit⟩)

/-- A stream as payloads in frames, and the bytes where reading stops. -/
structure Cut (limit : Nat) (stream : List UInt8) (payloads : List (List UInt8))
    (tail : List UInt8) (oversize : Option OversizeFrame) : Prop where
  bytes : stream = payloads.flatMap framed ++ tail
  within : ∀ payload ∈ payloads, payload.length ≤ limit
  stop : Stop limit tail oversize

/-- Takes frames from a buffer like `drain`, but looks at it so many times at most.  Nothing comes
of it if the last look still finds a frame. -/
def drainWithin (limit : Nat) : Nat → List UInt8 → Option Drained
  | 0, _ => none
  | looks + 1, buffer =>
    match nextFrame limit buffer with
    | .incomplete => some ⟨[], buffer, none⟩
    | .oversize fault => some ⟨[], buffer, some fault⟩
    | .frame item rest =>
      (drainWithin limit looks rest).map fun drained =>
        { drained with items := item :: drained.items }

variable {limit : Nat}

/-! ## Length fields -/

/-- A length field is read as the length that was written, if it has room for it. -/
theorem splitLength?_lengthField {length : Nat} (hlength : length < UInt32.size)
    (rest : List UInt8) :
    splitLength? (lengthField length ++ rest) = some (length, rest) := by
  have hword : (UInt32.ofNat length).toNat = length := UInt32.toNat_ofNat_of_lt' hlength
  simp only [lengthField, word32, List.cons_append, List.nil_append, splitLength?, joinWord32_bytes]
  rw [hword]

/-- A length is read where it stands as a length field, which has room for it. -/
theorem splitLength?_eq_some {buffer rest : List UInt8} {length : Nat} :
    splitLength? buffer = some (length, rest) ↔
      length < UInt32.size ∧ buffer = lengthField length ++ rest := by
  constructor
  · intro h
    unfold splitLength? at h
    split at h
    · cases h
      refine ⟨UInt32.toNat_lt _, ?_⟩
      rw [lengthField, UInt32.ofNat_toNat, word32_join]
      rfl
    · cases h
  · rintro ⟨hroom, rfl⟩
    exact splitLength?_lengthField hroom rest

theorem splitLength?_eq_none {buffer : List UInt8} :
    splitLength? buffer = none ↔ buffer.length < lengthFieldSize := by
  rcases buffer with _ | ⟨a, _ | ⟨b, _ | ⟨c, _ | ⟨d, rest⟩⟩⟩⟩
  · exact iff_of_true rfl (by decide)
  · exact iff_of_true rfl (by simp [lengthFieldSize])
  · exact iff_of_true rfl (by simp [lengthFieldSize])
  · exact iff_of_true rfl (by simp [lengthFieldSize])
  · exact iff_of_false (by rintro ⟨⟩) (by simp [lengthFieldSize])

/-! ## The front of a stream -/

/-- The front of a stream is its first payload, and the rest begins behind it. -/
theorem nextFrame_framed (hlimit : limit < UInt32.size) {payload : List UInt8}
    (hfits : payload.length ≤ limit) (rest : List UInt8) :
    nextFrame limit (framed payload ++ rest) = .frame (Entry.decodeWhole payload) rest := by
  have hsplit : splitLength? (framed payload ++ rest) = some (payload.length, payload ++ rest) := by
    rw [framed, List.append_assoc]
    exact splitLength?_lengthField (Nat.lt_of_le_of_lt hfits hlimit) _
  have htake : (payload ++ rest).take payload.length = payload := List.take_left
  have hdrop : (payload ++ rest).drop payload.length = rest := List.drop_left
  simp only [nextFrame, hsplit, htake, hdrop, if_neg (Nat.not_lt.mpr hfits), Nat.lt_irrefl,
    if_false]

/-- The front of any bytes at all: the beginning of a frame, a length beyond the limit, or a
payload. -/
theorem nextFrame_cases (limit : Nat) (buffer : List UInt8) :
    (nextFrame limit buffer = .incomplete ∧ Unfinished limit buffer) ∨
      (∃ fault, nextFrame limit buffer = .oversize fault ∧ Stop limit buffer (some fault)) ∨
      ∃ payload rest, nextFrame limit buffer = .frame (Entry.decodeWhole payload) rest ∧
        payload.length ≤ limit ∧ buffer = framed payload ++ rest := by
  cases hsplit : splitLength? buffer with
  | none => exact .inl ⟨by rw [nextFrame, hsplit], .inl (splitLength?_eq_none.mp hsplit)⟩
  | some front =>
      obtain ⟨length, after⟩ := front
      obtain ⟨hroom, hbuffer⟩ := splitLength?_eq_some.mp hsplit
      by_cases hbeyond : limit < length
      · refine .inr (.inl ⟨⟨length, limit⟩, ?_, ?_⟩)
        · simp only [nextFrame, hsplit, if_pos hbeyond]
        · rw [hbuffer]
          exact .oversize hbeyond hroom
      · by_cases hshort : (after.take length).length < length
        · refine .inl ⟨?_, .inr ⟨length, after, Nat.le_of_not_lt hbeyond, ?_, hbuffer⟩⟩
          · simp only [nextFrame, hsplit, if_neg hbeyond, if_pos hshort]
          · rw [List.length_take] at hshort
            omega
        · have hlength : (after.take length).length = length := by
            rw [List.length_take] at hshort ⊢
            omega
          refine .inr (.inr ⟨after.take length, after.drop length, ?_, by omega, ?_⟩)
          · simp only [nextFrame, hsplit, if_neg hbeyond, if_neg hshort]
          · rw [framed, hlength, List.append_assoc, List.take_append_drop, hbuffer]

/-- The reader waits for more bytes exactly at the beginning of a frame. -/
theorem nextFrame_eq_incomplete (hlimit : limit < UInt32.size) {buffer : List UInt8} :
    nextFrame limit buffer = .incomplete ↔ Unfinished limit buffer := by
  constructor
  · intro h
    rcases nextFrame_cases limit buffer with ⟨-, hunfinished⟩ | ⟨_, hnext, -⟩ | ⟨_, _, hnext, -⟩
    · exact hunfinished
    · cases h.symm.trans hnext
    · cases h.symm.trans hnext
  · rintro (hshort | ⟨length, present, hwithin, hshort, rfl⟩)
    · rw [nextFrame, splitLength?_eq_none.mpr hshort]
    · have hroom : length < UInt32.size := Nat.lt_of_le_of_lt hwithin hlimit
      have hmissing : (present.take length).length < length := by
        rw [List.length_take]
        omega
      simp only [nextFrame, splitLength?_lengthField hroom present,
        if_neg (Nat.not_lt.mpr hwithin), if_pos hmissing]

/-- A length is refused exactly if it stands there and is beyond the limit. -/
theorem nextFrame_eq_oversize {buffer : List UInt8} {fault : OversizeFrame} :
    nextFrame limit buffer = .oversize fault ↔ Stop limit buffer (some fault) := by
  constructor
  · intro h
    rcases nextFrame_cases limit buffer with ⟨hnext, -⟩ | ⟨_, hnext, hstop⟩ | ⟨_, _, hnext, -⟩
    · cases h.symm.trans hnext
    · cases h.symm.trans hnext
      exact hstop
    · cases h.symm.trans hnext
  · intro h
    cases h with
    | oversize hbeyond hroom =>
        simp only [nextFrame, splitLength?_lengthField hroom, if_pos hbeyond]

/-- A frame that is taken is a payload within the limit behind its length. -/
theorem exists_framed_of_nextFrame {buffer rest : List UInt8} {item : Item}
    (h : nextFrame limit buffer = .frame item rest) :
    ∃ payload, payload.length ≤ limit ∧ buffer = framed payload ++ rest ∧
      item = Entry.decodeWhole payload := by
  rcases nextFrame_cases limit buffer with
    ⟨hnext, -⟩ | ⟨_, hnext, -⟩ | ⟨payload, _, hnext, hfits, hbuffer⟩
  · cases h.symm.trans hnext
  · cases h.symm.trans hnext
  · cases h.symm.trans hnext
    exact ⟨payload, hfits, hbuffer, rfl⟩

/-! ## Whole streams -/

theorem drain_of_stop (hlimit : limit < UInt32.size) {tail : List UInt8}
    {oversize : Option OversizeFrame} (h : Stop limit tail oversize) :
    drain limit tail = ⟨[], tail, oversize⟩ := by
  cases h with
  | unfinished htail => exact drain_of_incomplete ((nextFrame_eq_incomplete hlimit).mpr htail)
  | oversize hbeyond hroom =>
      exact drain_of_oversize (nextFrame_eq_oversize.mpr (.oversize hbeyond hroom))

/-- What is read of a stream is what it is cut into. -/
theorem drain_of_cut (hlimit : limit < UInt32.size) {stream tail : List UInt8}
    {payloads : List (List UInt8)} {oversize : Option OversizeFrame}
    (h : Cut limit stream payloads tail oversize) :
    drain limit stream = ⟨payloads.map Entry.decodeWhole, tail, oversize⟩ := by
  obtain ⟨rfl, hwithin, hstop⟩ := h
  induction payloads with
  | nil => exact drain_of_stop hlimit hstop
  | cons payload payloads ih =>
      rw [List.forall_mem_cons] at hwithin
      have hnext := nextFrame_framed hlimit hwithin.1 (payloads.flatMap framed ++ tail)
      rw [List.flatMap_cons, List.append_assoc, drain_of_frame hnext, ih hwithin.2]
      rfl

/-- Payloads in frames are read one by one, whatever they are, up to the beginning of the next
frame. -/
theorem drain_append_framed (hlimit : limit < UInt32.size) {payloads : List (List UInt8)}
    (hfits : ∀ payload ∈ payloads, payload.length ≤ limit) {tail : List UInt8}
    (htail : Unfinished limit tail) :
    drain limit (payloads.flatMap framed ++ tail) =
      ⟨payloads.map Entry.decodeWhole, tail, none⟩ :=
  drain_of_cut hlimit ⟨rfl, hfits, .unfinished htail⟩

/-! ## Every stream has a cut -/

theorem exists_cut (hlimit : limit < UInt32.size) (stream : List UInt8) :
    ∃ payloads tail oversize, Cut limit stream payloads tail oversize := by
  induction stream using drain.induct limit with
  | case1 tail hnext =>
      exact ⟨[], tail, none, rfl, nofun, .unfinished ((nextFrame_eq_incomplete hlimit).mp hnext)⟩
  | case2 tail fault hnext =>
      exact ⟨[], tail, some fault, rfl, nofun, nextFrame_eq_oversize.mp hnext⟩
  | case3 buffer item rest hnext ih =>
      obtain ⟨payload, hfits, hbuffer, -⟩ := exists_framed_of_nextFrame hnext
      obtain ⟨payloads, tail, oversize, hcut⟩ := ih
      refine ⟨payload :: payloads, tail, oversize, ?_, ?_, hcut.stop⟩
      · rw [List.flatMap_cons, List.append_assoc, ← hcut.bytes, hbuffer]
      · exact List.forall_mem_cons.mpr ⟨hfits, hcut.within⟩

/-- Behind the same length there is the same payload. -/
theorem framed_append_inj (hlimit : limit < UInt32.size) {payload payload' rest rest' : List UInt8}
    (hfits : payload.length ≤ limit) (hfits' : payload'.length ≤ limit)
    (h : framed payload ++ rest = framed payload' ++ rest') : payload = payload' ∧ rest = rest' := by
  have hsplit := splitLength?_lengthField (Nat.lt_of_le_of_lt hfits hlimit) (payload ++ rest)
  have hsplit' := splitLength?_lengthField (Nat.lt_of_le_of_lt hfits' hlimit) (payload' ++ rest')
  rw [framed, framed, List.append_assoc, List.append_assoc] at h
  rw [h, hsplit'] at hsplit
  obtain ⟨hlength, hbytes⟩ := Prod.mk.inj (Option.some.inj hsplit)
  exact List.append_inj hbytes.symm hlength.symm

theorem flatMap_framed_inj (hlimit : limit < UInt32.size) {payloads payloads' : List (List UInt8)}
    (hfits : ∀ payload ∈ payloads, payload.length ≤ limit)
    (hfits' : ∀ payload ∈ payloads', payload.length ≤ limit)
    (h : payloads.flatMap framed = payloads'.flatMap framed) : payloads = payloads' := by
  induction payloads generalizing payloads' with
  | nil =>
      cases payloads' with
      | nil => rfl
      | cons payload' payloads' => cases h
  | cons payload payloads ih =>
      cases payloads' with
      | nil => cases h
      | cons payload' payloads' =>
          rw [List.forall_mem_cons] at hfits hfits'
          obtain ⟨rfl, hrest⟩ := framed_append_inj hlimit hfits.1 hfits'.1 h
          rw [ih hfits.2 hfits'.2 hrest]

namespace Cut

variable {stream tail tail' : List UInt8} {payloads payloads' : List (List UInt8)}
  {oversize oversize' : Option OversizeFrame}

/-- There is one cut of a stream. -/
theorem unique (hlimit : limit < UInt32.size) (h : Cut limit stream payloads tail oversize)
    (h' : Cut limit stream payloads' tail' oversize') :
    payloads = payloads' ∧ tail = tail' ∧ oversize = oversize' := by
  have hdrained := (drain_of_cut hlimit h).symm.trans (drain_of_cut hlimit h')
  obtain ⟨-, rfl, rfl⟩ := Drained.mk.inj hdrained
  have hframes := List.append_cancel_right (h.bytes.symm.trans h'.bytes)
  exact ⟨flatMap_framed_inj hlimit h.within h'.within hframes, rfl, rfl⟩

/-- A stream is long enough for the length fields of its frames. -/
theorem length_le (h : Cut limit stream payloads tail oversize) :
    lengthFieldSize * payloads.length ≤ stream.length := by
  obtain ⟨rfl, -, -⟩ := h
  rw [List.length_append]
  induction payloads with
  | nil => exact Nat.zero_le _
  | cons payload payloads ih =>
      have hfield : (lengthField payload.length).length = lengthFieldSize := rfl
      simp only [List.flatMap_cons, framed, List.length_append, List.length_cons, hfield,
        Nat.mul_add_one]
      omega

end Cut

/-! ## How many looks it takes -/

/-- Reading comes to an end as soon as there is one look more than there are frames. -/
theorem drainWithin_eq (limit looks : Nat) (buffer : List UInt8) :
    drainWithin limit looks buffer =
      if (drain limit buffer).items.length < looks then some (drain limit buffer) else none := by
  induction looks generalizing buffer with
  | zero => rfl
  | succ looks ih =>
      rw [drainWithin]
      cases hnext : nextFrame limit buffer with
      | incomplete => rw [drain_of_incomplete hnext]; rfl
      | oversize fault => rw [drain_of_oversize hnext]; rfl
      | frame item rest =>
          rw [drain_of_frame hnext]
          simp only [ih, List.length_cons, Nat.add_lt_add_iff_right]
          split <;> rfl

end ChannelServer.Wire
