import ChannelServer.Proofs.Framing

/-!
# Frames from a buffer that grows

Bytes that are taken from a buffer as they arrive give the same channels, whatever the pieces are
that they arrive in.  A frame that is whole does not change when bytes come behind it, a length
beyond the limit stays one, and where more bytes are needed nothing is taken.

So draining the rest of a buffer together with new bytes goes on where it stopped (`drain_append`),
and by induction on the pieces all the answers together are the answer to the whole stream.

## Main results

* `drain_append`: a drained buffer can be drained further.
* `foldl_drainPieces`: the answers to the pieces make up the answer to the stream.
* `drainPieces_flatten`: items, rest and end of a stream do not depend on the pieces.
-/

namespace ChannelServer.Wire

variable {limit : Nat}

/-! ## The front of a longer buffer -/

theorem splitLength?_append {buffer rest : List UInt8} {length : Nat}
    (h : splitLength? buffer = some (length, rest)) (more : List UInt8) :
    splitLength? (buffer ++ more) = some (length, rest ++ more) := by
  obtain ⟨hroom, rfl⟩ := splitLength?_eq_some.mp h
  exact splitLength?_eq_some.mpr ⟨hroom, List.append_assoc _ _ _⟩

/-- A whole frame stays as it is when more bytes come. -/
theorem nextFrame_append_of_frame {buffer rest : List UInt8} {item : Item}
    (h : nextFrame limit buffer = .frame item rest) (more : List UInt8) :
    nextFrame limit (buffer ++ more) = .frame item (rest ++ more) := by
  unfold nextFrame at h
  split at h
  · cases h
  · rename_i length tail hsplit
    split at h
    · cases h
    · rename_i hwithin
      split at h
      · cases h
      · rename_i hwhole
        cases h
        have hlength : length ≤ tail.length := by
          rw [List.length_take] at hwhole
          omega
        have htake : (tail ++ more).take length = tail.take length :=
          List.take_append_of_le_length hlength
        have hdrop : (tail ++ more).drop length = tail.drop length ++ more :=
          List.drop_append_of_le_length hlength
        simp only [nextFrame, splitLength?_append hsplit, if_neg hwithin, htake, if_neg hwhole,
          hdrop]

/-- A length beyond the limit is noticed before its bytes come, and stays one. -/
theorem nextFrame_append_of_oversize {buffer : List UInt8} {fault : OversizeFrame}
    (h : nextFrame limit buffer = .oversize fault) (more : List UInt8) :
    nextFrame limit (buffer ++ more) = .oversize fault := by
  unfold nextFrame at h
  split at h
  · cases h
  · rename_i length tail hsplit
    split at h
    · rename_i hbeyond
      cases h
      simp only [nextFrame, splitLength?_append hsplit, if_pos hbeyond]
    · split at h <;> cases h

/-! ## Draining further -/

/-- What two turns of draining give together: the items of both, and what the later one leaves. -/
def Drained.followedBy (earlier later : Drained) : Drained :=
  { later with items := earlier.items ++ later.items }

/-- Draining a longer buffer is draining the shorter one, and then its rest with the new bytes. -/
theorem drain_append (limit : Nat) (buffer more : List UInt8) :
    drain limit (buffer ++ more) =
      (drain limit buffer).followedBy (drain limit ((drain limit buffer).rest ++ more)) := by
  induction buffer using drain.induct limit with
  | case1 buffer hnext =>
      rw [drain_of_incomplete hnext]
      rfl
  | case2 buffer fault hnext =>
      rw [drain_of_oversize hnext]
      rfl
  | case3 buffer item rest hnext ih =>
      rw [drain_of_frame hnext, drain_of_frame (nextFrame_append_of_frame hnext more), ih]
      rfl

/-- A buffer that was left with an oversize frame at its front keeps it there. -/
theorem nextFrame_rest_of_oversize {buffer : List UInt8} {fault : OversizeFrame}
    (h : (drain limit buffer).oversize = some fault) (more : List UInt8) :
    nextFrame limit ((drain limit buffer).rest ++ more) = .oversize fault := by
  induction buffer using drain.induct limit with
  | case1 buffer hnext =>
      rw [drain_of_incomplete hnext] at h
      cases h
  | case2 buffer fault' hnext =>
      rw [drain_of_oversize hnext] at h ⊢
      cases h
      exact nextFrame_append_of_oversize hnext more
  | case3 buffer item rest hnext ih =>
      rw [drain_of_frame hnext] at h ⊢
      exact ih h

/-! ## Many pieces -/

/-- The answers to the pieces, one after the other, make up the answer to all the bytes. -/
theorem foldl_drainPieces (limit : Nat) (buffer : List UInt8) (pieces : List (List UInt8)) :
    (drainPieces limit (drain limit buffer).rest pieces).foldl Drained.followedBy
      (drain limit buffer) = drain limit (buffer ++ pieces.flatten) := by
  induction pieces generalizing buffer with
  | nil =>
      rw [List.flatten_nil, List.append_nil]
      rfl
  | cons piece pieces ih =>
      rw [List.flatten_cons, ← List.append_assoc, ← ih (buffer ++ piece), drain_append limit buffer]
      rfl

theorem foldl_followedBy (start : Drained) (answers : List Drained) :
    answers.foldl Drained.followedBy start =
      { items := start.items ++ answers.flatMap (·.items)
        rest := (answers.map (·.rest)).getLastD start.rest
        oversize := (answers.map (·.oversize)).getLastD start.oversize } := by
  induction answers generalizing start with
  | nil => simp
  | cons answer answers ih =>
      rw [List.foldl_cons, ih]
      simp only [Drained.followedBy, List.flatMap_cons, List.append_assoc, List.map_cons,
        List.getLastD_cons]

/-- The answer to a stream, put together from the answers to its pieces. -/
theorem drain_flatten (limit : Nat) (pieces : List (List UInt8)) :
    drain limit pieces.flatten =
      { items := (drainPieces limit [] pieces).flatMap (·.items)
        rest := ((drainPieces limit [] pieces).map (·.rest)).getLastD []
        oversize := ((drainPieces limit [] pieces).map (·.oversize)).getLastD none } := by
  have hempty : drain limit [] = ⟨[], [], none⟩ := drain_of_incomplete rfl
  have hfold := foldl_drainPieces limit [] pieces
  rw [hempty, foldl_followedBy, List.nil_append, List.nil_append] at hfold
  exact hfold.symm

/-! ## Oversize frames -/

/-- Each answer is about some bytes, and the later answers start from what it left. -/
theorem exists_drain_of_drainPieces {pieces : List (List UInt8)} {buffer : List UInt8}
    {earlier later : List Drained} {answer : Drained}
    (h : drainPieces limit buffer pieces = earlier ++ answer :: later) :
    ∃ buffer' pieces', answer = drain limit buffer' ∧
      later = drainPieces limit answer.rest pieces' := by
  induction earlier generalizing buffer pieces with
  | nil =>
      cases pieces with
      | nil => cases h
      | cons piece pieces =>
          cases h
          exact ⟨buffer ++ piece, pieces, rfl, rfl⟩
  | cons first earlier ih =>
      cases pieces with
      | nil => cases h
      | cons piece pieces => exact ih (List.cons.inj h).2

/-- Behind an oversize frame nothing is taken any more, and every answer is about that frame. -/
theorem drainPieces_of_oversize {buffer : List UInt8} {fault : OversizeFrame}
    (hfront : ∀ more, nextFrame limit (buffer ++ more) = .oversize fault)
    {pieces : List (List UInt8)} :
    ∀ answer ∈ drainPieces limit buffer pieces,
      answer.items = [] ∧ answer.oversize = some fault := by
  induction pieces generalizing buffer with
  | nil => exact nofun
  | cons piece pieces ih =>
      have hdrained := drain_of_oversize (hfront piece)
      rw [drainPieces, hdrained, List.forall_mem_cons]
      refine ⟨⟨rfl, rfl⟩, ih fun more => ?_⟩
      rw [List.append_assoc]
      exact hfront (piece ++ more)

/-- The stream ends with the oversize frame that the answer to a piece ends with, and nothing comes
after it. -/
theorem ends_of_oversize {pieces : List (List UInt8)} {earlier later : List Drained}
    {answer : Drained} {fault : OversizeFrame}
    (hanswers : drainPieces limit [] pieces = earlier ++ answer :: later)
    (hoversize : answer.oversize = some fault) :
    (drain limit pieces.flatten).oversize = some fault ∧
      (∀ other ∈ later, other.items = [] ∧ other.oversize = some fault) ∧
      ∀ more, nextFrame limit (answer.rest ++ more) = .oversize fault := by
  obtain ⟨buffer, pieces', rfl, hpieces⟩ := exists_drain_of_drainPieces hanswers
  have hfront := nextFrame_rest_of_oversize hoversize
  have hlater : ∀ other ∈ later, other.items = [] ∧ other.oversize = some fault := by
    rw [hpieces]
    exact drainPieces_of_oversize hfront
  refine ⟨?_, hlater, hfront⟩
  -- The last answer is this one or a later one.
  have hmem : (drain limit pieces.flatten).oversize ∈
      some fault :: later.map (·.oversize) := by
    have hlast : (drain limit pieces.flatten).oversize =
        ((drainPieces limit [] pieces).map (·.oversize)).getLastD none :=
      congrArg Drained.oversize (drain_flatten limit pieces)
    rw [hlast, hanswers, List.map_append, List.map_cons, hoversize, List.getLastD_eq_getLast?,
      List.getLast?_append, List.getLast?_cons, Option.some_or, Option.getD_some,
      ← List.getLastD_eq_getLast?]
    exact List.getLastD_mem_cons
  rw [List.mem_cons, List.mem_map] at hmem
  obtain hsame | ⟨other, hother, hsame⟩ := hmem
  · exact hsame
  · rw [← hsame]
    exact (hlater other hother).2

/-- A stream ends with an oversize frame exactly if the answer to one of its pieces does. -/
theorem exists_oversize_iff (limit : Nat) (pieces : List (List UInt8)) :
    (∃ answer ∈ drainPieces limit [] pieces, answer.oversize.isSome) ↔
      (drain limit pieces.flatten).oversize.isSome := by
  constructor
  · rintro ⟨answer, hmem, hsome⟩
    obtain ⟨earlier, later, hanswers⟩ := List.append_of_mem hmem
    obtain ⟨fault, hoversize⟩ := Option.isSome_iff_exists.mp hsome
    rw [(ends_of_oversize hanswers hoversize).1]
    rfl
  · intro hsome
    have hmem : (drain limit pieces.flatten).oversize ∈
        none :: (drainPieces limit [] pieces).map (·.oversize) := by
      rw [drain_flatten]
      exact List.getLastD_mem_cons
    rw [List.mem_cons, List.mem_map] at hmem
    obtain hnone | ⟨answer, hanswer, hsame⟩ := hmem
    · rw [hnone] at hsome
      cases hsome
    · rw [← hsame] at hsome
      exact ⟨answer, hanswer, hsome⟩

/-- The items that a stream gives, the bytes that are left of it and whether it ends with an
oversize frame do not depend on the pieces in which it arrives.  After an oversize frame there are
no more items, and looking at the buffer finds that frame for ever. -/
theorem drainPieces_flatten (limit : Nat) (pieces : List (List UInt8)) :
    let answers := drainPieces limit [] pieces
    let whole := drain limit pieces.flatten
    answers.flatMap (·.items) = whole.items ∧
    (answers.map (·.rest)).getLastD [] = whole.rest ∧
    ((∃ answer ∈ answers, answer.oversize.isSome) ↔ whole.oversize.isSome) ∧
    ∀ earlier answer later fault, answers = earlier ++ answer :: later →
      answer.oversize = some fault →
      whole.oversize = some fault ∧
      (∀ other ∈ later, other.items = [] ∧ other.oversize = some fault) ∧
      ∀ more, nextFrame limit (answer.rest ++ more) = .oversize fault := by
  intro answers whole
  have hwhole := drain_flatten limit pieces
  refine ⟨?_, ?_, exists_oversize_iff limit pieces, ?_⟩
  · exact (congrArg Drained.items hwhole).symm
  · exact (congrArg Drained.rest hwhole).symm
  · intro earlier answer later fault
    exact ends_of_oversize

/-- A frame without a channel and an oversize frame, cut inside both length fields. -/
theorem drainPieces_flatten_of_cuts :
    let pieces : List (List UInt8) := [[0, 0], [0, 1, 7, 0], [1, 0, 0, 9], [9]]
    let whole := drain 4096 pieces.flatten
    whole.items = [.error (.badInput (.channelTooShort 1 minimumSize))] ∧
      whole.rest = [0, 1, 0, 0, 9, 9] ∧ whole.oversize = some ⟨65536, 4096⟩ ∧
      ∀ more, nextFrame 4096 ([0, 1, 0, 0, 9] ++ more) = .oversize ⟨65536, 4096⟩ := by
  intro pieces whole
  have hanswers : drainPieces 4096 [] pieces =
      [⟨[], [0, 0], none⟩, ⟨[.error (.badInput (.channelTooShort 1 minimumSize))], [0], none⟩] ++
        ⟨[], [0, 1, 0, 0, 9], some ⟨65536, 4096⟩⟩ ::
          [⟨[], [0, 1, 0, 0, 9, 9], some ⟨65536, 4096⟩⟩] := by
    have hfirst : drain 4096 [0, 0] = ⟨[], [0, 0], none⟩ := drain_of_incomplete rfl
    have hsecond : drain 4096 [0, 0, 0, 1, 7, 0] =
        ⟨[.error (.badInput (.channelTooShort 1 minimumSize))], [0], none⟩ := by
      rw [drain_of_frame rfl, drain_of_incomplete rfl]
      rfl
    have hthird : drain 4096 [0, 1, 0, 0, 9] = ⟨[], [0, 1, 0, 0, 9], some ⟨65536, 4096⟩⟩ :=
      drain_of_oversize rfl
    have hlast : drain 4096 [0, 1, 0, 0, 9, 9] = ⟨[], [0, 1, 0, 0, 9, 9], some ⟨65536, 4096⟩⟩ :=
      drain_of_oversize rfl
    simp only [pieces, drainPieces, List.nil_append, List.cons_append, hfirst, hsecond, hthird,
      hlast]
  obtain ⟨hitems, hrest, -, hend⟩ := drainPieces_flatten 4096 pieces
  obtain ⟨hoversize, -, hfront⟩ := hend _ _ _ _ hanswers rfl
  rw [hanswers] at hitems hrest
  exact ⟨hitems.symm, hrest.symm, hoversize, hfront⟩

end ChannelServer.Wire
