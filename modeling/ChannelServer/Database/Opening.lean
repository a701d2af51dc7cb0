import ChannelServer.Database.Url

/-!
# What is asked for when a database is opened

A URL and the parameters of its file together say what is asked for: which file, what may be done
with it, and how it is stored. The URL grants something first; the parameters of the file can only
narrow that, except that a database in memory can be asked for at any time, and whoever has one may
ask for everything.
-/

namespace ChannelServer

/-- What may be done with a file. -/
inductive Access where
  | read
  /-- Read and write, if the file is there. -/
  | write
  /-- Read and write, and make the file if it is not there. -/
  | create
deriving DecidableEq, Repr

/-- Each kind of access includes those of lower rank. -/
def Access.rank : Access → Nat
  | read => 0
  | write => 1
  | create => 2

/-- How a file is stored and kept from being written to by two at once. -/
inductive Storage where
  /-- By the locks of the file system. -/
  | locks
  /-- By one lock that is held as long as the file is open. -/
  | exclusive
  /-- By another file beside it. -/
  | lockFile
  /-- Not at all. -/
  | unguarded
  /-- The file is not on the disk but in memory. -/
  | memory
deriving DecidableEq, Repr

/-- The storage of a name. -/
def Storage.ofName? (name : List UInt8) : Option Storage :=
  match Text.ofBytes? name with
  | some "unix" => some locks
  | some "unix-excl" => some exclusive
  | some "unix-dotfile" => some lockFile
  | some "unix-none" => some unguarded
  | some "memdb" => some memory
  | _ => none

/-- What has been granted so far. -/
structure Grant where
  access : Access := .create
  inMemory : Bool := false
  /-- Others may share what is in memory. -/
  shared : Bool := false
deriving DecidableEq, Repr

namespace Grant

/-- Access to a file, if it has been granted. -/
def toFile? (access : Access) (grant : Grant) : Option Grant :=
  if grant.inMemory || access.rank ≤ grant.access.rank then
    some { grant with access, inMemory := false }
  else none

/-- Takes a parameter of a file into account. -/
def accept? (grant : Grant) : List UInt8 × List UInt8 → Option Grant
  | (name, value) =>
    match Text.ofBytes? name, Text.ofBytes? value with
    | some "mode", some "ro" => grant.toFile? .read
    | some "mode", some "rw" => grant.toFile? .write
    | some "mode", some "rwc" => grant.toFile? .create
    | some "mode", some "memory" => some { grant with access := .create, inMemory := true }
    | some "mode", _ => none
    | some "cache", some "private" => some { grant with shared := false }
    | some "cache", some "shared" => some { grant with shared := true }
    | some "cache", _ => none
    | _, _ => some grant

end Grant

/-- A database to be opened. -/
structure Opening where
  path : List UInt8
  /-- The path is the name by which others may ask for the same. -/
  isNamed : Bool := false
  grant : Grant
  storage : Storage := .locks
  /-- The file never changes, so nothing is written to it. -/
  frozen : Bool := false
  /-- The file is not locked, whatever its storage does. -/
  unlocked : Bool := false
  /-- A new file gets the permissions of this one. -/
  permissionsOf : Option (List UInt8) := none
deriving DecidableEq, Repr

namespace Opening

/-- What a file and its parameters ask for. The last of several kinds of storage counts, and of
several switches the first. -/
def ofFile? (grant : Grant) (uri : FileUri) : Option Opening := do
  let grant ← uri.parameters.foldlM Grant.accept? grant
  let storage ← (uri.last? "vfs").elim (some .locks) Storage.ofName?
  return {
    path := uri.path, isNamed := !uri.isBare && uri.path ≠ [], grant, storage
    frozen := uri.flag "immutable"
    unlocked := uri.flag "nolock"
    permissionsOf := uri.first? "modeof" }

/-- What a URL asks for. -/
def ofUrl? (text : String) : Option Opening := do
  let url ← DatabaseUrl.ofText? text
  let uri ← url.file?
  let access := if url.readOnly then Access.read else Access.create
  ofFile? { access, inMemory := url.inMemory, shared := url.shared } uri

/-- The database has no file, not even one in memory. -/
def hasNoFile (opening : Opening) : Bool :=
  opening.grant.inMemory || opening.path = [] || opening.path = Text.bytes ":memory:"

/-- Whoever asks for the same gets the same database as long as it is open. A file in memory need
not be shared for that if its path starts at the root. -/
def isShared (opening : Opening) : Bool :=
  opening.isNamed && (opening.grant.shared ||
    (!opening.hasNoFile && opening.path.length > 1
      && opening.path.head?.any (· ∈ ['/'.toUInt8, '\\'.toUInt8])))

end Opening

end ChannelServer
