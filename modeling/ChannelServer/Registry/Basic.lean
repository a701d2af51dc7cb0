import ChannelServer.Channel.Metadata
import ChannelServer.Channel.Password
import ChannelServer.Privilege
import ChannelServer.Slots
import ChannelServer.Wire.Entry

/-!
# The registry

The registry owns all channels, players and bans of a server. Entities refer to each other by id:
a channel knows its parent, its subchannels and its members, a player knows the channel where it
is. Nothing in the types makes both ends of such a reference agree; that is what the operations are
for.

An operation is an `Action`: it answers or it fails, and in both cases it leaves a registry behind.
A failing action leaves the registry as it was at the moment of the failure, so "nothing has
changed" is something to be shown of an operation and not a matter of its type.
-/

namespace ChannelServer

/-! ## Entities
-/

/-- A channel in the registry. -/
structure Channel where
  id : ChannelId
  info : Metadata
  /-- Only that of a top channel counts. -/
  password : Password := .empty
  parent : Option ChannelId := none
  subchannels : List ChannelId := []
  members : List PlayerId := []
  /-- The privileges in the group of this channel. -/
  records : List Record := []
deriving DecidableEq, Repr

instance : Identified Channel ChannelId := ⟨Channel.id⟩

namespace Channel

/-- A channel without a parent. -/
def isTop (channel : Channel) : Bool := channel.parent.isNone

/-- The channel as it goes over the wire. -/
def entry (channel : Channel) : Wire.Entry where
  id := channel.id
  parent := channel.parent
  info := channel.info

/-- The channel with other flags. -/
def setFlags (channel : Channel) (flags : Flags) : Channel :=
  { channel with info := { channel.info with flags } }

/-- The record of an identity. -/
def record? (channel : Channel) (identity : Identity) : Option Record :=
  channel.records.find? (·.identity = identity)

/-- Puts the privileges of an identity in place of what its record says, or adds a record. -/
def putRecord (channel : Channel) (record : Record) : Channel :=
  if (channel.record? record.identity).isSome then
    { channel with
      records := Slots.modifyFirst (·.identity = record.identity)
        (fun old => { old with rights := record.rights }) channel.records }
  else { channel with records := channel.records ++ [record] }

/-- The privileges of registered accounts in this channel are worth storing. -/
def storesPrivileges (channel : Channel) : Bool :=
  !channel.info.flags.has .unregistered

end Channel

/-- The server-wide flags of a player, one bit each. -/
structure PlayerFlags where
  bits : UInt16
deriving DecidableEq, Repr, Inhabited

namespace PlayerFlags

/-- No flag at all. -/
def none : PlayerFlags := ⟨0⟩

/-- Is logged in with an account. -/
def registered : PlayerFlags := ⟨0x0004⟩

/-- Every flag of the second set is in the first. -/
def has (f g : PlayerFlags) : Bool := f.bits &&& g.bits == g.bits

end PlayerFlags

/-- What is known of a player who connects. -/
structure Newcomer where
  name : String
  machine : String
  account : Option AccountId := none
  flags : PlayerFlags := .none
deriving DecidableEq, Repr

namespace Newcomer

/-- A player without an account. -/
def guest (name machine : String) : Newcomer := { name, machine }

/-- A player with a registered account. -/
def registered (name machine : String) (account : AccountId) : Newcomer :=
  { name, machine, account := some account, flags := .registered }

end Newcomer

/-- A connected player. -/
structure Player where
  id : PlayerId
  /-- A number that only this player and the server know. -/
  secret : UInt32
  name : String
  machine : String
  account : Option AccountId
  flags : PlayerFlags
  /-- The channel where the player is. -/
  channel : Option ChannelId := none
deriving DecidableEq, Repr

instance : Identified Player PlayerId := ⟨Player.id⟩

namespace Player

/-- The identity that the privileges of a player are looked up by. An account counts only together
with the flag of a registered player. -/
def identity (player : Player) : Identity :=
  match player.account with
  | some account =>
    if player.flags.has .registered then .registered account else .unregistered player.id
  | none => .unregistered player.id

/-- The player is known by an account. -/
def isRegistered (player : Player) : Bool :=
  player.flags.has .registered && player.account.isSome

end Player

/-- An address of the Internet Protocol, version 4. -/
structure Address where
  a : UInt8
  b : UInt8
  c : UInt8
  d : UInt8
deriving DecidableEq, Repr

instance : ToString Address := ⟨fun address =>
  s!"{address.a}.{address.b}.{address.c}.{address.d}"⟩

/-- What a ban is to be. -/
structure NewBan where
  address : Address
  reason : String
  /-- Zero stands for a ban without end. -/
  minutes : UInt16
deriving DecidableEq, Repr

/-- A banned address. -/
structure Ban extends NewBan where
  id : BanId
deriving DecidableEq, Repr

instance : Identified Ban BanId := ⟨Ban.id⟩

/-- The ban has no end. -/
def Ban.isPermanent (ban : Ban) : Bool := ban.minutes = 0

/-! ## The registry and its queries -/

/-- How many entities of each kind a registry takes. -/
structure Limits where
  channels : Nat := 1024
  players : Nat := 512
  bans : Nat := 1024
deriving DecidableEq, Repr

/-- All channels, players and bans of a server. -/
structure Registry where
  limits : Limits
  channels : Slots Channel
  players : Slots Player
  bans : Slots Ban
deriving Repr

namespace Registry

/-- The most bans there can be: their ids are words of 16 bits, and none is zero. -/
def maxBans : Nat := 65535

/-- A registry without any entity. -/
def empty (limits : Limits) : Registry where
  limits := limits
  channels := ⟨limits.channels, []⟩
  players := ⟨limits.players, []⟩
  bans := ⟨min limits.bans maxBans, []⟩

/-- The written form of a registry gives its limits and the number of its entities. -/
instance : ToString Registry := ⟨fun registry =>
  let limits := registry.limits
  s!"Registry \x7b config: RegistryConfig \x7b max_kanaele: {limits.channels}, " ++
    s!"max_spieler: {limits.players}, max_bans: {limits.bans} \x7d, " ++
    s!"kanaele: {registry.channels.size}, spieler: {registry.players.size}, " ++
    s!"bans: {registry.bans.size} \x7d"⟩

/-- The channel with an id. -/
def channel (registry : Registry) (id : ChannelId) : Except Fault Channel :=
  match registry.channels.get? id with
  | some channel => .ok channel
  | none => .error (.missing (.channel id))

/-- The player with an id. -/
def player (registry : Registry) (id : PlayerId) : Except Fault Player :=
  match registry.players.get? id with
  | some player => .ok player
  | none => .error (.missing (.player id))

/-- The default channel: a top channel with the default flag. -/
def defaultChannel (registry : Registry) : Except Fault Channel :=
  match registry.channels.find? (fun channel =>
    channel.isTop && channel.info.flags.has .default) with
  | some channel => .ok channel
  | none => .error (.missing .defaultChannel)

/-! ## Actions -/

/-- An operation on the registry. When it fails, the registry stays as it was at that moment. -/
abbrev Action (α : Type) := EStateM Fault Registry α

/-- Asks the registry something and fails with the question. -/
def ask {α : Type} (question : Registry → Except Fault α) : Action α := fun registry =>
  match question registry with
  | .ok answer => .ok answer registry
  | .error fault => .error fault registry

/-- Fails unless a condition holds. -/
def require (condition : Bool) (fault : Fault) : Action Unit := fun registry =>
  if condition then .ok () registry else .error fault registry

/-- Carries out an action and answers whether it failed. -/
def attempt {α : Type} (action : Action α) : Action (Except Fault α) := fun registry =>
  match action registry with
  | .ok answer registry => .ok (.ok answer) registry
  | .error fault registry => .ok (.error fault) registry

/-- Changes a channel, which has to be there. -/
def updateChannel (id : ChannelId) (f : Channel → Channel) : Action Unit := do
  let _ ← ask (·.channel id)
  modify fun registry => { registry with channels := registry.channels.modify id f }

/-- Changes a channel if it is there. -/
def modifyChannel (id : ChannelId) (f : Channel → Channel) : Action Unit :=
  modify fun registry => { registry with channels := registry.channels.modify id f }

/-- Changes a player, which has to be there. -/
def updatePlayer (id : PlayerId) (f : Player → Player) : Action Unit := do
  let _ ← ask (·.player id)
  modify fun registry => { registry with players := registry.players.modify id f }

end Registry

end ChannelServer
