import ChannelServer.Database.Table
import ChannelServer.Text.Percent

/-!
# Disks

A disk has directories and files, and each file holds a table. There are two ways to go along a
path.

The file of a database is found by the text of its path: an empty name and a single dot stay, two
dots go up, and any other name goes down whether or not something is there. But nothing is below a
file, a directory does not look up a name that is too long for it, and a path that becomes too long
is not followed further.

Whether something is at a path is seen by walking: every step, also one that stays or goes up,
starts in a directory that is there.
-/

namespace ChannelServer

/-- A place on a disk: the names that lead to it from the root. -/
abbrev FilePath := List (List UInt8)

namespace FilePath

/-- The place of a path from the root that says nothing in vain. -/
def ofText (text : String) : FilePath :=
  (Text.pieces '/' (Text.bytes text)).filter (· ≠ [])

/-- The number of bytes in a path from the root, each name with the slash before it. -/
def length (path : FilePath) : Nat :=
  path.foldr (fun name length => name.length + 1 + length) 0

/-- The last name of a path. -/
def lastName (path : FilePath) : List UInt8 :=
  path.getLast?.getD []

end FilePath

/-- What there is on a disk: directories, and the tables in the files. -/
structure Disk where
  /-- Where paths start that do not start at the root. -/
  current : FilePath := []
  /-- Directories beside the current one. -/
  directories : List FilePath := []
  /-- Places where there is something, but no table, and where no file can be made. -/
  sealed : List FilePath := []
  files : List (FilePath × Table) := []

namespace Disk

/-- A name may have as many bytes. -/
def nameLimit : Nat := 255

/-- The path of a database must have fewer bytes. -/
def pathLimit : Nat := 512

/-- A path that is walked must have fewer bytes. -/
def walkLimit : Nat := 4096

/-- There is a directory at a place, and files can be made in it. -/
def takesFiles (disk : Disk) (path : FilePath) : Bool :=
  path ∈ disk.current :: disk.directories

/-- There is a directory at a place. What is sealed is taken for one. -/
def hasDirectory (disk : Disk) (path : FilePath) : Bool :=
  disk.takesFiles path || path ∈ disk.sealed

/-- There is a file at a place. -/
def hasFile (disk : Disk) (path : FilePath) : Bool :=
  disk.files.any (·.1 = path)

/-- Follows a name from a place. -/
def follow? (disk : Disk) (path : FilePath) (name : List UInt8) : Option FilePath :=
  if name ∈ [[], Text.bytes "."] then some path
  else if name = Text.bytes ".." then some path.dropLast
  else
    let next := path ++ [name]
    if next.length ≥ pathLimit || disk.hasFile path
        || (disk.hasDirectory path && name.length > nameLimit) then none
    else some next

/-- Where a path starts. -/
def start (disk : Disk) (path : List UInt8) : FilePath :=
  if path.head? = some '/'.toUInt8 then [] else disk.current

/-- The place that the text of a path leads to. -/
def find? (disk : Disk) (path : List UInt8) : Option FilePath :=
  (Text.pieces '/' path).foldlM disk.follow? (disk.start path)

/-- Takes a step from a directory to something that is there. -/
def walk? (disk : Disk) (path : FilePath) (name : List UInt8) : Option FilePath :=
  if !disk.hasDirectory path then none
  else if name ∈ [[], Text.bytes "."] then some path
  else if name = Text.bytes ".." then some path.dropLast
  else
    let next := path ++ [name]
    if disk.hasDirectory next || disk.hasFile next then some next else none

/-- There is something at a path. -/
def has (disk : Disk) (path : List UInt8) : Bool :=
  path ≠ [] && path.length < walkLimit &&
    ((Text.pieces '/' path).foldlM disk.walk? (disk.start path)).isSome

/-- The table in a file. A new file has an empty one. -/
def table (disk : Disk) (path : FilePath) : Table :=
  (disk.files.lookup path).getD []

/-- Makes a file where there is none. -/
def make (disk : Disk) (path : FilePath) : Disk :=
  if disk.hasFile path then disk else { disk with files := (path, []) :: disk.files }

/-- Replaces the table in a file. -/
def write (disk : Disk) (path : FilePath) (table : Table) : Disk :=
  { disk with files := (path, table) :: disk.files.filter (·.1 ≠ path) }

end Disk

end ChannelServer
