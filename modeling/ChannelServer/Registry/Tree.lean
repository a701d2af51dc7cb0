import ChannelServer.Registry.Basic

/-!
# The channel tree in lines

A line per channel: each top channel in the order of the registry, followed by its subchannels in
the order in which they were attached.
-/

namespace ChannelServer

/-- What the tree shows of a channel. -/
structure TreeLine where
  id : ChannelId
  depth : Nat
  name : String
  topic : String
  description : String
  isDefault : Bool
  members : Nat
deriving DecidableEq, Repr

/-- The line of a channel. -/
def Channel.line (channel : Channel) (depth : Nat) : TreeLine where
  id := channel.id
  depth := depth
  name := channel.info.name
  topic := channel.info.topic
  description := channel.info.description
  isDefault := channel.isTop && channel.info.flags.has .default
  members := channel.members.length

/-- The lines of the channel tree. A subchannel that is not there has no line. -/
def Registry.tree (registry : Registry) : List TreeLine :=
  (registry.channels.entries.filter (·.isTop)).flatMap fun top =>
    top.line 0 :: (top.subchannels.filterMap registry.channels.get?).map (·.line 1)

end ChannelServer
