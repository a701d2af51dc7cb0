/-!
# Identifiers

Channels, players, accounts and bans are referred to by small words, never by position. Each kind
has its own type, so a player cannot be looked up among the channels, and its own written form,
which is what the messages and the channel tree show.
-/

namespace ChannelServer

/-- Names a channel. The largest word is never given to a channel: on the wire it stands for
"no parent". -/
structure ChannelId where
  value : UInt32
deriving DecidableEq, Repr, Inhabited

/-- Names a connected player for as long as the connection lasts. -/
structure PlayerId where
  value : UInt32
deriving DecidableEq, Repr, Inhabited

/-- Names a registered account, which outlives every connection. -/
structure AccountId where
  value : UInt32
deriving DecidableEq, Repr, Inhabited

/-- Names a ban. -/
structure BanId where
  value : UInt16
deriving DecidableEq, Repr, Inhabited

instance : ToString ChannelId := ⟨fun id => s!"channel:{id.value}"⟩

instance : ToString PlayerId := ⟨fun id => s!"player:{id.value}"⟩

instance : ToString AccountId := ⟨fun id => s!"reg:{id.value}"⟩

instance : ToString BanId := ⟨fun id => s!"ban:{id.value}"⟩

/-- The channel id that no channel may have. -/
def ChannelId.reserved : ChannelId := ⟨0xFFFFFFFF⟩

end ChannelServer
