import ChannelServer.Database.Disk
import ChannelServer.Database.Opening
import ChannelServer.Fault

/-!
# Where a database is

What is asked for meets a disk: the database is in memory or in a file, or it cannot be had. It is
not available if its file cannot be opened. It is not set up if it can be opened but not written
to.

Beside a file there are others for as long as it is open: a journal, a log of what is written
ahead, and for some storage a lock. Their names are that of the file and an ending, so they too
have to fit.
-/

namespace ChannelServer

/-- Where a database is. -/
inductive Location where
  /-- In memory, where others can reach it while it is open if it is shared. -/
  | memory (shared : Bool)
  | file (path : FilePath)
deriving DecidableEq, Repr

namespace Location

/-- The number of bytes that the ending of a journal takes. -/
def journalEnding : Nat := "-journal".length

/-- The number of bytes that the ending of a lock takes. -/
def lockEnding : Nat := ".lock".length

/-- The number of bytes that the path of a file in memory may have. -/
def memoryPathLimit : Nat := 1024

/-- A name has room for an ending. -/
def fits (path : FilePath) (ending : Nat) : Bool :=
  path.lastName.length + ending ≤ Disk.nameLimit

/-- A database without a file. -/
def withoutFile (opening : Opening) : Except StoreFault Location :=
  if opening.grant.access = .read then .error .notSetUp else .ok (.memory opening.isShared)

/-- A database whose file is in memory. -/
def inMemory (opening : Opening) : Except StoreFault Location :=
  if opening.path.length + journalEnding > memoryPathLimit then .error .unavailable
  else if opening.grant.access = .read || opening.frozen then .error .notSetUp
  else .ok (.memory opening.isShared)

/-- The place of the file that is asked for, if there is one or it can be made. -/
def place? (disk : Disk) (opening : Opening) : Option FilePath := do
  let path ← disk.find? opening.path
  if path.length + journalEnding > Disk.pathLimit then failure
  if disk.hasDirectory path then failure
  if !disk.hasFile path && !(opening.grant.access = .create && disk.takesFiles path.dropLast) then
    failure
  if opening.permissionsOf.any fun model => !disk.has model then failure
  return path

/-- What is written goes to the log first. This needs locks that a log can do with. -/
def usesLog (writeAhead : Bool) (opening : Opening) : Bool :=
  writeAhead && !opening.unlocked && opening.storage ∈ [.locks, .exclusive]

/-- A database in a file on a disk. Setting up the log and the lock belongs to opening it. -/
def onDisk (disk : Disk) (writeAhead : Bool) (opening : Opening) : Except StoreFault Location :=
  match place? disk opening with
  | none => .error .unavailable
  | some path =>
    let needsLock := opening.storage = .lockFile && !opening.unlocked
    if opening.frozen then .error .notSetUp
    else if usesLog writeAhead opening && !fits path journalEnding then .error .unavailable
    else if needsLock && !fits path lockEnding then .error .unavailable
    else if opening.grant.access = .read || !fits path journalEnding then .error .notSetUp
    else .ok (.file path)

/-- Where a database is that is asked for. -/
def find (disk : Disk) (writeAhead : Bool) (opening : Opening) : Except StoreFault Location :=
  if opening.hasNoFile then withoutFile opening
  else if opening.storage = .memory then inMemory opening
  else onDisk disk writeAhead opening

end Location

end ChannelServer
