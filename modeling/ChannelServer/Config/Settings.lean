import ChannelServer.Channel.Metadata
import ChannelServer.Registry.Basic

/-!
# Settings

The settings of a server. Every setting has a value of its own that holds where a configuration says
nothing; a server of which nothing is said at all has a single channel, the default channel.
-/

namespace ChannelServer.Config

/-- The server and its limits. -/
structure ServerSettings where
  name : String := "Stammtisch"
  limits : Limits := {}
deriving Repr

/-- The database of privileges. -/
structure DatabaseSettings where
  url : String := "sqlite://stammtisch.db"
  maxConnections : UInt32 := 5
  /-- Changes are logged ahead instead of being written in place. -/
  writeAhead : Bool := true
deriving Repr

/-- The log. -/
structure LogSettings where
  level : String := "info"
  format : String := "text"
deriving Repr

/-- A channel that is there from the start. -/
structure ChannelSettings where
  name : String := Metadata.preset.name
  topic : String := Metadata.preset.topic
  description : String := Metadata.preset.description
  /-- The names of the flags. -/
  flags : List String := []
  codec : UInt16 := Metadata.preset.codec.number
  sortOrder : UInt16 := Metadata.preset.sortOrder
  /-- The largest number of members; none for a channel without a limit. -/
  maxUsers : Option UInt16 := some Metadata.preset.capacity.toWord
  password : Option String := none
  /-- The name of the parent. -/
  parent : Option String := none
deriving Repr

/-- The default channel of a server that is not told of any channel. -/
def ChannelSettings.standard : ChannelSettings where
  name := "Standard"
  topic := "Willkommen"
  description := ""
  flags := ["default", "subchannels"]
  maxUsers := none

/-- All settings of a server. -/
structure Settings where
  server : ServerSettings := {}
  database : DatabaseSettings := {}
  log : LogSettings := {}
  channels : List ChannelSettings := [.standard]
deriving Repr

/-- The level of detail is one that a log has. -/
def isLogLevel (level : String) : Bool :=
  level ∈ ["trace", "debug", "info", "warn", "error"]

/-- The format is one that a log has. -/
def isLogFormat (format : String) : Bool :=
  format ∈ ["text", "json"]

end ChannelServer.Config
