import ChannelServer.Registry.Hierarchy

/-!
# Privileges of a session

Privileges belong to the top channel of a group. Whoever asks for the privileges of a player gets a
record, and if there is none, an empty one is made. Records of registered accounts in registered
channels are also handed to a store.

A session is a registry together with what it handed to its store. The store answers each record,
and may answer by what it got before; a refusal is noted and has no other effect, because the
privilege holds for the session whether it is stored or not.
-/

namespace ChannelServer

/-- A store as the session sees it: the answer to a record, given the records before it. -/
abbrev Store := List Record → Record → Except Fault Unit

namespace Store

/-- A store that keeps nothing and refuses nothing. -/
def none : Store := fun _ _ => .ok ()

/-- A store that refuses every record. -/
def refusing (fault : Fault) : Store := fun _ _ => .error fault

end Store

/-- A registry and what it handed to its store. -/
structure Session where
  registry : Registry
  /-- The records handed to the store, oldest first. -/
  handed : List Record := []
  /-- The records that the store refused. -/
  refused : List (Record × Fault) := []

namespace Session

/-- An operation on a session. When it fails, the session stays as it was at that moment. -/
abbrev Action (α : Type) := EStateM Fault Session α

/-- Carries out an action on the registry of a session. -/
def onRegistry {α : Type} (action : Registry.Action α) : Action α := fun session =>
  match action session.registry with
  | .ok answer registry => .ok answer { session with registry }
  | .error fault registry => .error fault { session with registry }

/-- Asks the registry of a session something and fails with the question. -/
def ask {α : Type} (question : Registry → Except Fault α) : Action α :=
  onRegistry (Registry.ask question)

/-- Hands a record to the store. A refusal is noted. -/
def hand (store : Store) (record : Record) : Action Unit :=
  modify fun session =>
    let session' := { session with handed := session.handed ++ [record] }
    match store session.handed record with
    | .ok () => session'
    | .error fault => { session' with refused := session.refused ++ [(record, fault)] }

/-- Hands a record to the store if it is worth storing: the identity is an account, and the channel
that owns the record is registered. -/
def keep (store : Store) (owner : Channel) (record : Record) : Action Unit :=
  if owner.storesPrivileges && record.identity.isRegistered then hand store record else pure ()

/-- The channel that owns the privileges of a player in a channel, and their record. A record that
is missing is made. -/
def locate (store : Store) (who : PlayerId) (place : ChannelId) : Action (Channel × Record) := do
  let player ← ask (·.player who)
  let owner ← ask (·.owner place)
  match owner.record? player.identity with
  | some record => return (owner, record)
  | none =>
    let record : Record := { channel := owner.id, identity := player.identity }
    keep store owner record
    onRegistry (Registry.updateChannel owner.id (·.putRecord record))
    return (owner, record)

/-- The privileges of a player in a channel. -/
def privileges (store : Store) (who : PlayerId) (place : ChannelId) : Action Record := do
  let (_, record) ← locate store who place
  return record

/-- Changes the privileges of a player in a channel and answers the new ones. -/
def changeRights (store : Store) (who : PlayerId) (place : ChannelId) (change : Rights → Rights) :
    Action Rights := do
  let (owner, record) ← locate store who place
  let changed := { record with rights := change record.rights }
  onRegistry (Registry.updateChannel owner.id (·.putRecord changed))
  keep store owner changed
  return changed.rights

/-- Gives a player rights in a channel, in addition to those it has. -/
def grant (store : Store) (who : PlayerId) (place : ChannelId) (rights : Rights) : Action Rights :=
  changeRights store who place (·.union rights)

/-- Takes rights in a channel from a player. -/
def revoke (store : Store) (who : PlayerId) (place : ChannelId) (rights : Rights) :
    Action Rights :=
  changeRights store who place (·.without rights)

end Session

/-! ## Stored privileges -/

namespace Registry

/-- Takes over one stored record. It has to be about an account and a top channel that is there. -/
def loadRecord? (registry : Registry) (record : Record) : Option Registry :=
  match registry.channels.get? record.channel with
  | some channel =>
    if record.identity.isRegistered && channel.isTop then
      some { registry with
        channels := registry.channels.modify record.channel (·.putRecord record) }
    else none
  | none => none

/-- Takes over stored records and answers how many were taken over. Nothing of it goes back to the
store. -/
def loadRecords : List Record → Action Nat
  | [] => return 0
  | record :: records => do
    match (← get).loadRecord? record with
    | some registry => set registry; return (← loadRecords records) + 1
    | none => loadRecords records

end Registry

end ChannelServer
