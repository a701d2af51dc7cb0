import ChannelServer.Registry.Hierarchy

/-!
# Membership

The channel keeps the list of its members, the player only knows the channel where it is. That a
player is in one channel at most is the work of `move`; `join` leaves older memberships alone.
-/

namespace ChannelServer.Registry

/-- Takes a player out of the members of a channel. -/
def dropMember (who : PlayerId) (channel : Channel) : Channel :=
  { channel with members := channel.members.filter (· ≠ who) }

/-- Makes a player a member of a channel. A player who is a member already only comes back to it,
however full the channel is. -/
def join (target : ChannelId) (who : PlayerId) : Action Unit := do
  let _ ← ask (·.player who)
  let channel ← ask (·.channel target)
  if who ∈ channel.members then
    updatePlayer who fun player => { player with channel := some target }
  else do
    let full ← ask (·.isFull target)
    require (!full) (.channelFull target channel.info.capacity.toWord)
    updateChannel target fun channel => { channel with members := channel.members ++ [who] }
    updatePlayer who fun player => { player with channel := some target }

/-- Moves a player from the channel where it is to another. A player stays in the old channel if the
new one is full. -/
def move (who : PlayerId) (target : ChannelId) : Action Unit := do
  let player ← ask (·.player who)
  let channel ← ask (·.channel target)
  if player.channel = some target then pure () else do
    let full ← ask (·.isFull target)
    require (!full) (.channelFull target channel.info.capacity.toWord)
    match player.channel with
    | some former => modifyChannel former (dropMember who)
    | none => pure ()
    join target who

/-- Takes a player out of the channel where it is, which is the answer. -/
def leave (who : PlayerId) : Action (Option ChannelId) := do
  let player ← ask (·.player who)
  updatePlayer who fun player => { player with channel := none }
  match player.channel with
  | some former => modifyChannel former (dropMember who)
  | none => pure ()
  return player.channel

end ChannelServer.Registry
