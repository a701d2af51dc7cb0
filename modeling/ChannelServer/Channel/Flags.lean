/-!
# Channel flags

A set of named bits in one 16-bit word. Bits without a name are kept as they are: a channel that
came over the wire goes out again with every bit it had.

A subchannel does not use its own flags but inherits those of its parent, except the two in
`Flags.notInherited`.
-/

namespace ChannelServer

/-- The flags of a channel, one bit each. -/
structure Flags where
  bits : UInt16
deriving DecidableEq, Repr, Inhabited

namespace Flags

/-- No flag at all. -/
def none : Flags := ⟨0⟩

/-- Privileges in the channel live for the session only. -/
def unregistered : Flags := ⟨0x0001⟩

/-- Only players with voice may speak. -/
def moderated : Flags := ⟨0x0002⟩

/-- The channel is protected by a password. -/
def password : Flags := ⟨0x0004⟩

/-- The channel may have subchannels. -/
def subchannels : Flags := ⟨0x0008⟩

/-- The channel where new players arrive. -/
def default : Flags := ⟨0x0010⟩

/-- All flags of either set. -/
def union (f g : Flags) : Flags := ⟨f.bits ||| g.bits⟩

/-- The flags of the first set that are not in the second. -/
def without (f g : Flags) : Flags := ⟨f.bits &&& ~~~g.bits⟩

/-- Every flag of the second set is in the first. -/
def has (f g : Flags) : Bool := f.bits &&& g.bits == g.bits

/-- What a subchannel does not take over from its parent. -/
def notInherited : Flags := subchannels.union default

/-- The flag of a name as it is written in a configuration. -/
def ofName? : String → Option Flags
  | "unregistered" => some unregistered
  | "moderated" => some moderated
  | "password" => some password
  | "subchannels" => some subchannels
  | "default" => some default
  | _ => Option.none

end Flags

end ChannelServer
