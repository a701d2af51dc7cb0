import ChannelServer.Registry.Basic
import ChannelServer.Wire.Frame

/-!
# Export

The channels of a registry as a stream of frames, the top channels before the subchannels, so that
a reader knows every parent before its subchannels.
-/

namespace ChannelServer.Registry

/-- The channels in the order in which they are written. -/
def exportOrder (registry : Registry) : List Channel :=
  registry.channels.entries.filter (·.isTop) ++ registry.channels.entries.filter (!·.isTop)

/-- The stream of all channels. Fails with the first channel that does not fit into a frame. -/
def exportStream (registry : Registry) : Except Fault (List UInt8) :=
  match Wire.frames Wire.defaultLimit (registry.exportOrder.map (·.entry)) with
  | .ok stream => .ok stream
  | .error (id, fault) => .error (.badArgument (.notFramable id fault))

end ChannelServer.Registry
