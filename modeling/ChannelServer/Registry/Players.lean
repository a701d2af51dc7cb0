import ChannelServer.Registry.Basic

/-!
# Players and bans

Players and bans come and go one at a time, and the ids they leave are given out again. So a player
who leaves is taken out of every list, and the privileges of the session go with the player: the
next one with this id starts with nothing.
-/

namespace ChannelServer.Registry

/-! ## Players
-/

/-- The largest id of a player. -/
def maxPlayerId : Nat := 4294967295

/-- Adds a player with the smallest free id, in no channel yet. The secret is drawn by the caller. -/
def addPlayer (newcomer : Newcomer) (secret : UInt32) : Action PlayerId := do
  let registry ← get
  let used := registry.players.entries.map (·.id.value.toNat)
  match smallestFree? used maxPlayerId with
  | none => throw (.slotsFull registry.players.capacity)
  | some free =>
    let id : PlayerId := ⟨UInt32.ofNat free⟩
    let players ← ask (·.players.insert
      { id, secret, name := newcomer.name, machine := newcomer.machine
        account := newcomer.account, flags := newcomer.flags })
    modify fun registry => { registry with players }
    return id

/-- What is left of a channel when a player is gone: neither the member nor its records. -/
def forget (id : PlayerId) (channel : Channel) : Channel :=
  { channel with
    members := channel.members.filter (· ≠ id)
    records := channel.records.filter (·.identity ≠ .unregistered id) }

/-- Removes a player, who is the answer. Nothing happens if there is none with this id. -/
def removePlayer (id : PlayerId) : Action (Option Player) := do
  let player := (← get).players.get? id
  if player.isSome then
    modify fun registry =>
      { registry with
        players := registry.players.erase id
        channels := registry.channels.map (forget id) }
  return player

/-- The player with an id and the secret that belongs to it. -/
def playerWithSecret? (registry : Registry) (id : PlayerId) (secret : UInt32) : Option Player :=
  (registry.players.get? id).filter (·.secret = secret)

/-! ## Bans -/

/-- Adds a ban with the smallest free id. -/
def addBan (ban : NewBan) : Action BanId := do
  let registry ← get
  let used := registry.bans.entries.map (·.id.value.toNat)
  match smallestFree? used maxBans with
  | none => throw (.slotsFull registry.bans.capacity)
  | some free =>
    let id : BanId := ⟨UInt16.ofNat free⟩
    let bans ← ask (·.bans.insert { ban with id })
    modify fun registry => { registry with bans }
    return id

/-- Removes a ban, which is the answer. Nothing happens if there is none with this id. -/
def removeBan (id : BanId) : Action (Option Ban) := do
  let ban := (← get).bans.get? id
  modify fun registry => { registry with bans := registry.bans.erase id }
  return ban

/-- The first ban of an address. -/
def banOf? (registry : Registry) (address : Address) : Option Ban :=
  registry.bans.find? (·.address = address)

end ChannelServer.Registry
