import ChannelServer.Registry.Basic

/-!
# The channel tree

Channels form a tree of two levels. A top channel may have subchannels if its flags say so; a
subchannel never has any, and takes its flags and its password from its parent. The two levels are
enforced where a channel is attached, so every question about a channel is answered after at most
one step up.
-/

namespace ChannelServer.Registry

/-! ## What a channel inherits
-/

/-- The channel whose password and privileges count for a channel: its parent or itself. -/
def owner (registry : Registry) (id : ChannelId) : Except Fault Channel := do
  let channel ← registry.channel id
  match channel.parent with
  | some parent => registry.channel parent
  | none => return channel

/-- The flags that count for a channel: its own, or those of its parent that are inherited. -/
def effectiveFlags (registry : Registry) (id : ChannelId) : Except Fault Flags := do
  let channel ← registry.channel id
  match channel.parent with
  | some parent => return (← registry.channel parent).info.flags.without .notInherited
  | none => return channel.info.flags

/-- The password that counts for a channel. Fails if the channel is not protected. -/
def effectivePassword (registry : Registry) (id : ChannelId) : Except Fault Password := do
  let owner ← registry.owner id
  if owner.info.flags.has .password then return owner.password
  else throw (.unprotected id)

/-- A candidate opens a channel. Without protection every candidate does. -/
def admits (registry : Registry) (id : ChannelId) (candidate : List UInt8) :
    Except Fault Bool := do
  let flags ← registry.effectiveFlags id
  if flags.has .password then return (← registry.effectivePassword id).accepts candidate
  else return true

/-- The channel takes no more members. The default channel always does. -/
def isFull (registry : Registry) (id : ChannelId) : Except Fault Bool := do
  let flags ← registry.effectiveFlags id
  let channel ← registry.channel id
  return !flags.has .default && channel.info.capacity.reachedBy channel.members.length

/-! ## Attaching and detaching -/

/-- Takes a subchannel away from its parent. It becomes a top channel. -/
def detach (parent child : ChannelId) : Action Unit := do
  let channel ← ask (·.channel child)
  require (channel.parent = some parent) (.badArgument (.notAttached child parent))
  updateChannel parent fun channel =>
    { channel with subchannels := channel.subchannels.filter (· ≠ child) }
  updateChannel child fun channel => { channel with parent := none }

/-- Puts a channel below a parent. A parent that it had before is given up silently. From now on
the privileges of the new parent count, so its own are dropped. -/
def attach (parent child : ChannelId) : Action Unit := do
  let _ ← ask (·.channel parent)
  let channel ← ask (·.channel child)
  let flags ← ask (·.effectiveFlags parent)
  require (flags.has .subchannels) (.unsupported (.subchannels parent))
  require (parent ≠ child) (.badArgument (.attachToItself child))
  require channel.subchannels.isEmpty (.badArgument (.attachParent child))
  require (!(channel.isTop && channel.info.flags.has .default)) (.badArgument (.attachDefault child))
  match channel.parent with
  | some former => detach former child
  | none => pure ()
  updateChannel child fun channel => { channel with parent := some parent, records := [] }
  updateChannel parent fun channel =>
    { channel with subchannels := channel.subchannels ++ [child] }

/-! ## Passwords -/

/-- Protects a top channel by a password. -/
def setPassword (id : ChannelId) (bytes : List UInt8) : Action Unit := do
  let password ← ask fun _ => Password.ofBytes bytes
  let channel ← ask (·.channel id)
  require channel.isTop (.unsupported (.ownPassword id))
  updateChannel id fun channel =>
    { channel.setFlags (channel.info.flags.union .password) with password := password }

/-- Ends the protection of a top channel. -/
def clearPassword (id : ChannelId) : Action Unit := do
  let channel ← ask (·.channel id)
  require channel.isTop (.unsupported (.ownPassword id))
  updateChannel id fun channel =>
    { channel.setFlags (channel.info.flags.without .password) with password := .empty }

end ChannelServer.Registry
