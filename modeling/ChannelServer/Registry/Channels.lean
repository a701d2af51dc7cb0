import ChannelServer.Registry.Hierarchy

/-!
# Adding, changing and destroying channels

A new channel gets the smallest free id; a channel that comes over the wire brings its own. Either
way its metadata is checked, and a second default channel is refused. The default flag moves from
one top channel to another only by `setDefault`.
-/

namespace ChannelServer

/-- The channel without the default flag. Without it "unbounded" cannot be written any more and
becomes the largest limit. -/
def Channel.resignDefault (channel : Channel) : Channel :=
  { channel with
    info :=
      { channel.info with
        flags := channel.info.flags.without .default
        capacity := .limited channel.info.capacity.toWord } }

namespace Registry

/-! ## Adding and destroying -/

/-- The largest id of a channel. The word after it is reserved. -/
def maxChannelId : Nat := 4294967294

/-- Adds a top channel with a given id. -/
def addChannelAs (id : ChannelId) (info : Metadata) : Action Unit := do
  ask fun _ => info.check
  require (id ≠ .reserved) (.badArgument (.reservedId id))
  let registry ← get
  require (!registry.channels.contains id) (.badArgument (.idTaken id))
  match registry.defaultChannel with
  | .ok present =>
    require (!info.flags.has .default) (.badArgument (.defaultExists present.id))
  | .error _ => pure ()
  let channels ← ask (·.channels.insert { id, info })
  modify fun registry => { registry with channels := channels }

/-- Adds a top channel with the smallest free id. -/
def addChannel (info : Metadata) : Action ChannelId := do
  let registry ← get
  let used := registry.channels.entries.map (·.id.value.toNat)
  match smallestFree? used maxChannelId with
  | none => throw (.slotsFull registry.channels.capacity)
  | some free =>
    let id : ChannelId := ⟨UInt32.ofNat free⟩
    addChannelAs id info
    return id

/-- The listed players are no longer in a channel. Players who have gone elsewhere stay there. -/
def vacate (id : ChannelId) (members : List PlayerId) (players : Slots Player) : Slots Player :=
  members.foldl (fun players member => players.modify member fun player =>
    if player.channel = some id then { player with channel := none } else player) players

/-- The listed channels have no parent any more. -/
def orphan (children : List ChannelId) (channels : Slots Channel) : Slots Channel :=
  children.foldl (fun channels child => channels.modify child fun channel =>
    { channel with parent := none }) channels

/-- Destroys a channel. Its members stay connected but are in no channel, and its subchannels, which
are the answer, become top channels. -/
def destroyChannel (id : ChannelId) : Action (List ChannelId) := do
  let channel ← ask (·.channel id)
  match channel.parent with
  | some parent => detach parent id
  | none => pure ()
  let channel ← ask (·.channel id)
  modify fun registry =>
    { registry with
      channels := orphan channel.subchannels (registry.channels.erase id)
      players := vacate id channel.members registry.players }
  return channel.subchannels

/-! ## The default channel -/

/-- Makes a top channel the default channel in place of the one that was. -/
def setDefault (id : ChannelId) : Action Unit := do
  let channel ← ask (·.channel id)
  require channel.isTop (.badArgument (.defaultBelowParent id))
  match (← get).defaultChannel with
  | .ok former =>
    if former.id = id then pure () else do
      updateChannel former.id Channel.resignDefault
      updateChannel id fun channel => channel.setFlags (channel.info.flags.union .default)
  | .error _ =>
    updateChannel id fun channel => channel.setFlags (channel.info.flags.union .default)

/-! ## Changing metadata -/

/-- Changes a channel if it is there, and answers whether it is. The change may be refused. -/
def editChannel (id : ChannelId) (edit : Channel → Except Fault Channel) : Action Bool := do
  match (← get).channels.get? id with
  | none => return false
  | some channel =>
    let edited ← ask fun _ => edit channel
    modifyChannel id fun _ => edited
    return true

/-- Replaces one of the texts of a channel. The metadata as a whole is checked again. -/
def setText (id : ChannelId) (field : Field) (text : String) : Action Bool :=
  editChannel id fun channel => do
    let info := channel.info.setText field text
    info.check
    return { channel with info }

/-- Replaces the number that channels are sorted by. -/
def setSortOrder (id : ChannelId) (sortOrder : UInt16) : Action Bool :=
  editChannel id fun channel => .ok { channel with info := { channel.info with sortOrder } }

/-- Replaces the codec of a channel. -/
def setCodec (id : ChannelId) (codec : Codec) : Action Bool :=
  editChannel id fun channel => .ok { channel with info := { channel.info with codec } }

end Registry

end ChannelServer
