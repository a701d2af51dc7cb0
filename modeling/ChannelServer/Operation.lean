import ChannelServer.Registry.Export
import ChannelServer.Registry.Import
import ChannelServer.Registry.Membership
import ChannelServer.Registry.Players
import ChannelServer.Registry.Tree
import ChannelServer.Session

/-!
# Operations

Everything that can be done to a session, as data. A run is a list of operations, each of which may
fail; what holds of the session after every run is said with `Session.Reachable`.
-/

namespace ChannelServer

/-- An operation that may change a session. -/
inductive Operation where
  | addChannel (info : Metadata)
  | destroyChannel (id : ChannelId)
  | attach (parent child : ChannelId)
  | detach (parent child : ChannelId)
  | setDefault (id : ChannelId)
  | setPassword (id : ChannelId) (bytes : List UInt8)
  | clearPassword (id : ChannelId)
  | setText (id : ChannelId) (field : Field) (text : String)
  | setSortOrder (id : ChannelId) (sortOrder : UInt16)
  | setCodec (id : ChannelId) (codec : Codec)
  | addPlayer (newcomer : Newcomer) (secret : UInt32)
  | removePlayer (id : PlayerId)
  | join (target : ChannelId) (who : PlayerId)
  | move (who : PlayerId) (target : ChannelId)
  | leave (who : PlayerId)
  | privileges (who : PlayerId) (place : ChannelId)
  | grant (who : PlayerId) (place : ChannelId) (rights : Rights)
  | revoke (who : PlayerId) (place : ChannelId) (rights : Rights)
  | loadRecords (records : List Record)
  | addBan (ban : NewBan)
  | removeBan (id : BanId)
  | importBatch (entries : List Wire.Entry)
  | importStream (stream : List UInt8)

/-- The answer of an operation. -/
inductive Answer where
  | done
  /-- Whether there is a channel with this id. -/
  | found (present : Bool)
  | channel (id : ChannelId)
  | channels (ids : List ChannelId)
  /-- The channel that was left. -/
  | left (former : Option ChannelId)
  | player (id : PlayerId)
  | removedPlayer (player : Option Player)
  | record (record : Record)
  | rights (rights : Rights)
  | count (count : Nat)
  | ban (id : BanId)
  | removedBan (ban : Option Ban)
  | report (report : ImportReport)

namespace Operation

open Session (onRegistry)

/-- Carries out an operation on a session with a store. -/
def perform (store : Store) : Operation → Session.Action Answer
  | addChannel info => return .channel (← onRegistry (Registry.addChannel info))
  | destroyChannel id => return .channels (← onRegistry (Registry.destroyChannel id))
  | attach parent child => do onRegistry (Registry.attach parent child); return .done
  | detach parent child => do onRegistry (Registry.detach parent child); return .done
  | setDefault id => do onRegistry (Registry.setDefault id); return .done
  | setPassword id bytes => do onRegistry (Registry.setPassword id bytes); return .done
  | clearPassword id => do onRegistry (Registry.clearPassword id); return .done
  | setText id field text => return .found (← onRegistry (Registry.setText id field text))
  | setSortOrder id sortOrder => return .found (← onRegistry (Registry.setSortOrder id sortOrder))
  | setCodec id codec => return .found (← onRegistry (Registry.setCodec id codec))
  | addPlayer newcomer secret => return .player (← onRegistry (Registry.addPlayer newcomer secret))
  | removePlayer id => return .removedPlayer (← onRegistry (Registry.removePlayer id))
  | join target who => do onRegistry (Registry.join target who); return .done
  | move who target => do onRegistry (Registry.move who target); return .done
  | leave who => return .left (← onRegistry (Registry.leave who))
  | privileges who place => return .record (← Session.privileges store who place)
  | grant who place rights => return .rights (← Session.grant store who place rights)
  | revoke who place rights => return .rights (← Session.revoke store who place rights)
  | loadRecords records => return .count (← onRegistry (Registry.loadRecords records))
  | addBan ban => return .ban (← onRegistry (Registry.addBan ban))
  | removeBan id => return .removedBan (← onRegistry (Registry.removeBan id))
  | importBatch entries => return .report (← onRegistry (Registry.importBatch entries))
  | importStream stream => return .report (← onRegistry (Registry.importStream stream))

end Operation

namespace Session

/-- A session that begins with a registry. -/
def start (registry : Registry) : Session := { registry }

/-- The answer of an operation and the session after it, whether it failed or not. -/
def step (store : Store) (operation : Operation) (session : Session) :
    Except Fault Answer × Session :=
  match operation.perform store session with
  | .ok answer session => (.ok answer, session)
  | .error fault session => (.error fault, session)

/-- The session after some operations. -/
def run (store : Store) (operations : List Operation) (session : Session) : Session :=
  operations.foldl (fun session operation => (session.step store operation).2) session

/-- The sessions that operations lead to, starting with an empty registry. -/
inductive Reachable (store : Store) (limits : Limits) : Session → Prop where
  | start : Reachable store limits (start (.empty limits))
  | step {session : Session} (operation : Operation) :
      Reachable store limits session → Reachable store limits (session.step store operation).2

/-- A session is reachable exactly if some run leads to it. -/
theorem reachable_iff {store : Store} {limits : Limits} {session : Session} :
    Reachable store limits session ↔
      ∃ operations, session = (start (.empty limits)).run store operations := by
  constructor
  · intro h
    induction h with
    | start => exact ⟨[], rfl⟩
    | step operation _ ih =>
      obtain ⟨operations, rfl⟩ := ih
      exact ⟨operations ++ [operation], by simp [run]⟩
  · rintro ⟨operations, rfl⟩
    have key : ∀ (operations : List Operation) (session : Session),
        Reachable store limits session → Reachable store limits (session.run store operations) := by
      intro operations
      induction operations with
      | nil => exact fun _ h => h
      | cons operation operations ih => exact fun session h => ih _ (.step operation h)
    exact key operations _ .start

end Session

end ChannelServer
