import ChannelServer.Registry.Channels
import ChannelServer.Wire.Frame

/-!
# Import

Channels that were read carry only the raw id of their parent. An import first adds all of them as
top channels and then attaches those that named a parent, so a parent may come later in the batch
than its subchannels. A channel that cannot be attached is discarded again, and with it whatever was
attached to it in the meantime. The report tells for every channel what became of it.
-/

namespace ChannelServer

/-- A channel that was not taken over, or a frame that holds none. -/
structure Rejection where
  /-- Absent if the channel could not even be read. -/
  channel : Option ChannelId
  fault : Fault
deriving DecidableEq, Repr

/-- What became of an import. -/
structure ImportReport where
  /-- The channels taken over, in the order of the input. -/
  imported : List ChannelId := []
  rejected : List Rejection := []
deriving DecidableEq, Repr

namespace ImportReport

/-- Nothing was rejected. -/
def isClean (report : ImportReport) : Bool := report.rejected.isEmpty

/-- Notes a channel that was taken over. -/
def accept (report : ImportReport) (id : ChannelId) : ImportReport :=
  { report with imported := report.imported ++ [id] }

/-- Notes a channel that was not taken over. -/
def reject (report : ImportReport) (id : ChannelId) (fault : Fault) : ImportReport :=
  { report with rejected := report.rejected ++ [⟨some id, fault⟩] }

/-- Notes that a channel that had been taken over is gone again. -/
def discard (report : ImportReport) (id : ChannelId) (fault : Fault) : ImportReport :=
  { report.reject id fault with imported := report.imported.filter (· ≠ id) }

end ImportReport

namespace Registry

/-- A channel that is still to be attached. -/
structure Pending where
  child : ChannelId
  parent : ChannelId
deriving DecidableEq, Repr

/-- Adds the channels of a batch as top channels and collects what is still to be attached. -/
def addAll (report : ImportReport) (pending : List Pending) :
    List Wire.Entry → Action (ImportReport × List Pending)
  | [] => return (report, pending)
  | entry :: entries => do
    match ← attempt (addChannelAs entry.id entry.info) with
    | .ok () =>
      let pending := match entry.parent with
        | some parent => pending ++ [⟨entry.id, parent⟩]
        | none => pending
      addAll (report.accept entry.id) pending entries
    | .error fault => addAll (report.reject entry.id fault) pending entries

/-- Channels whose parent is itself still to be attached come last; apart from that the order
stays. -/
def attachOrder (pending : List Pending) : List Pending :=
  let children := pending.map (·.child)
  pending.filter (·.parent ∉ children) ++ pending.filter (·.parent ∈ children)

/-- Destroys an imported channel and then, down to a given depth, what had been attached to it. -/
def discardWithin (depth : Nat) (id : ChannelId) (fault : Fault) (report : ImportReport) :
    Action ImportReport :=
  match depth with
  | 0 => return report
  | depth + 1 => do
    match ← attempt (destroyChannel id) with
    | .error _ => return report
    | .ok children =>
      children.foldlM
        (fun report child => discardWithin depth child (.badArgument (.parentDiscarded id)) report)
        (report.discard id fault)

/-- Destroys an imported channel and everything attached to it. Each level of the tree loses at
least one channel, so there are no more levels than channels. -/
def discard (id : ChannelId) (fault : Fault) (report : ImportReport) : Action ImportReport := do
  discardWithin ((← get).channels.size + 1) id fault report

/-- Attaches the pending channels that are still there and discards those that cannot be
attached. -/
def attachAll (report : ImportReport) : List Pending → Action ImportReport
  | [] => return report
  | ⟨child, parent⟩ :: pending => do
    if (← get).channels.contains child then
      match ← attempt (attach parent child) with
      | .ok () => attachAll report pending
      | .error fault => attachAll (← discard child fault report) pending
    else attachAll report pending

/-- Takes over a batch of channels. -/
def importBatch (entries : List Wire.Entry) : Action ImportReport := do
  let (report, pending) ← addAll {} [] entries
  attachAll report (attachOrder pending)

/-! ## Streams -/

/-- The channels that could be read. -/
def readable (items : List Wire.Item) : List Wire.Entry :=
  items.filterMap Except.toOption

/-- One rejection for each frame that holds no channel. -/
def unreadable (items : List Wire.Item) : List Rejection :=
  items.filterMap fun item =>
    match item with
    | .ok _ => none
    | .error fault => some ⟨none, fault⟩

/-- The rejection of what the stream ends with, if it is no frame. -/
def tailRejection (drained : Wire.Drained) : List Rejection :=
  match drained.oversize with
  | some fault => [⟨none, .badInput (.oversize fault)⟩]
  | none =>
    if drained.rest.isEmpty then []
    else [⟨none, .badInput (.truncated drained.rest.length)⟩]

/-- Takes over the channels of a stream. Frames that cannot be read come first in the report. -/
def importStream (stream : List UInt8) : Action ImportReport := do
  let drained := Wire.drain Wire.defaultLimit stream
  let report ← importBatch (readable drained.items)
  return { report with
    rejected := unreadable drained.items ++ tailRejection drained ++ report.rejected }

end Registry

end ChannelServer
