import ChannelServer.Channel.Flags

/-!
# Capacity

How many members a channel takes. Only the default channel may be unbounded, and the wire has no
room for more than a 16-bit word: its largest value means "unbounded" for the default channel and
is an ordinary limit everywhere else.
-/

namespace ChannelServer

/-- The number of members a channel takes. -/
inductive Capacity where
  | limited (max : UInt16)
  | unbounded
deriving DecidableEq, Repr, Inhabited

namespace Capacity

/-- The word that stands for "unbounded". -/
def unboundedWord : UInt16 := 0xFFFF

/-- The word that stands for a capacity. -/
def toWord : Capacity → UInt16
  | limited max => max
  | unbounded => unboundedWord

/-- The capacity a word stands for in a channel with the given flags. -/
def ofWord (word : UInt16) (flags : Flags) : Capacity :=
  if word = unboundedWord ∧ flags.has .default then unbounded else limited word

/-- A channel with this many members takes no more. -/
def reachedBy (count : Nat) : Capacity → Bool
  | limited max => decide (max.toNat ≤ count)
  | unbounded => false

end Capacity

end ChannelServer
