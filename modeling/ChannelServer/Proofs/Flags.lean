import ChannelServer.Channel.Flags

/-!
# Reading flags after a change

Whether a set of flags has a flag after others were added or taken away.  The conditions on the
words are about constants, so `decide` settles them.
-/

namespace ChannelServer.Flags

section Words

private theorem or_and_word (a b c : UInt16) : (a ||| b) &&& c = (a &&& c) ||| (b &&& c) := by
  apply UInt16.eq_of_toBitVec_eq
  ext i hi
  simp only [UInt16.toBitVec_or, UInt16.toBitVec_and, BitVec.getElem_or, BitVec.getElem_and,
    Bool.and_or_distrib_right]

private theorem and_or_self_word (a b : UInt16) : (a &&& b) ||| b = b := by
  apply UInt16.eq_of_toBitVec_eq
  ext i hi
  simp only [UInt16.toBitVec_or, UInt16.toBitVec_and, BitVec.getElem_or, BitVec.getElem_and]
  cases b.toBitVec[i] <;> simp

private theorem or_and_not_word (a b : UInt16) : (a ||| b) &&& ~~~b = a &&& ~~~b := by
  apply UInt16.eq_of_toBitVec_eq
  ext i hi
  simp only [UInt16.toBitVec_or, UInt16.toBitVec_and, UInt16.toBitVec_not, BitVec.getElem_or,
    BitVec.getElem_and, BitVec.getElem_not]
  cases b.toBitVec[i] <;> simp

private theorem not_or_word (a b : UInt16) : ~~~(a ||| b) = ~~~a &&& ~~~b := by
  apply UInt16.eq_of_toBitVec_eq
  ext i hi
  simp only [UInt16.toBitVec_not, UInt16.toBitVec_or, UInt16.toBitVec_and, BitVec.getElem_not,
    BitVec.getElem_or, BitVec.getElem_and, Bool.not_or]

end Words

/-- A flag that was added is there. -/
theorem has_union_self (f g : Flags) : (f.union g).has g = true := by
  simp only [has, union, beq_iff_eq]
  rw [or_and_word, UInt16.and_self, and_or_self_word]

/-- Adding flags does not change whether an unrelated flag is there. -/
theorem has_union_of_disjoint {g p : Flags} (f : Flags) (h : p.bits &&& g.bits = 0) :
    (f.union p).has g = f.has g := by
  simp only [has, union]
  rw [or_and_word, h, UInt16.or_zero]

/-- Taking flags away does not change whether an unrelated flag is there. -/
theorem has_without_of_disjoint {g p : Flags} (f : Flags) (h : ~~~p.bits &&& g.bits = g.bits) :
    (f.without p).has g = f.has g := by
  simp only [has, without]
  rw [UInt16.and_assoc, h]

/-- A flag that was taken away is gone. -/
theorem not_has_without {g p : Flags} (f : Flags) (h : ~~~p.bits &&& g.bits = 0)
    (hg : g.bits ≠ 0) : (f.without p).has g = false := by
  simp only [has, without]
  rw [UInt16.and_assoc, h, UInt16.and_zero]
  exact beq_eq_false_iff_ne.mpr fun h => hg h.symm

theorem union_without_self (f g : Flags) : (f.union g).without g = f.without g := by
  simp only [union, without, or_and_not_word]

theorem without_without_self (f g : Flags) : (f.without g).without g = f.without g := by
  simp only [without, UInt16.and_assoc, UInt16.and_self]

/-- Taking away two sets of flags at once is taking away one after the other. -/
theorem without_union (f g p : Flags) : f.without (g.union p) = (f.without g).without p := by
  simp only [without, union, mk.injEq]
  rw [not_or_word, UInt16.and_assoc]

end ChannelServer.Flags
