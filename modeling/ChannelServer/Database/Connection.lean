import ChannelServer.Config.Settings
import ChannelServer.Database.Location
import ChannelServer.Database.Queue

/-!
# Open databases

The rows of a database are in its file, which is made on opening if it is not there, or in memory,
where they begin empty each time. After closing, every access fails, though an argument is still
looked at first.

The file belongs to the disk and not to the connection. So another program may write to it, whether
or not the database is open here.
-/

namespace ChannelServer

/-- A database that has been opened. -/
structure Connection where
  location : Location
  /-- The disk with the file of the database. -/
  disk : Disk := {}
  /-- The rows of a database in memory. -/
  memory : Table := []
  isOpen : Bool := true

namespace Connection

/-- Opens the database in memory that needs no settings. -/
def inMemory (disk : Disk) : Connection := { location := .memory false, disk }

/-- Opens a database at a location. -/
def atLocation (disk : Disk) : Location → Connection
  | .memory shared => { location := .memory shared, disk }
  | .file path => { location := .file path, disk := disk.make path }

/-- Where the database of some settings is. -/
def locate (disk : Disk) (settings : Config.DatabaseSettings) : Except StoreFault Location :=
  match Opening.ofUrl? settings.url with
  | none => .error .unavailable
  | some opening => Location.find disk settings.writeAhead opening

/-- Opens the database of some settings. The number of connections is looked at first. -/
def openDatabase (disk : Disk) (settings : Config.DatabaseSettings) :
    Except StoreFault Connection :=
  if settings.maxConnections = 0 then .error .noConnections
  else (locate disk settings).map (atLocation disk)

/-- Closes a database. What is in memory is gone. -/
def close (connection : Connection) : Connection :=
  { connection with memory := [], isOpen := false }

/-- The rows of a database. -/
def table (connection : Connection) : Table :=
  match connection.location with
  | .memory _ => connection.memory
  | .file path => connection.disk.table path

/-- Replaces the rows of a database. -/
def withTable (table : Table) (connection : Connection) : Connection :=
  match connection.location with
  | .memory _ => { connection with memory := table }
  | .file path => { connection with disk := connection.disk.write path table }

/-- Fails on a closed database. -/
def whileOpen {α : Type} (connection : Connection) (access : Except StoreFault α) :
    Except StoreFault α :=
  if connection.isOpen then access else .error .unavailable

/-- Saves a record. -/
def save (record : Record) (connection : Connection) : Except StoreFault Connection := do
  let row ← Row.ofRecord record
  connection.whileOpen (.ok (connection.withTable (connection.table.put row)))

/-- Another program opens the database of some settings and writes a row. It finds the table in the
file, and in memory only if that is shared and open here. -/
def writeBeside (settings : Config.DatabaseSettings) (row : Row) (connection : Connection) :
    Except StoreFault Connection :=
  match locate connection.disk settings with
  | .ok (.file path) =>
    let table := (connection.disk.table path).put row
    .ok { connection with disk := connection.disk.write path table }
  | .ok (.memory true) =>
    connection.whileOpen (.ok { connection with memory := connection.memory.put row })
  | _ => .error .unavailable

/-- Reads all records. -/
def all (connection : Connection) : Except StoreFault (List Record) :=
  connection.whileOpen connection.table.all

/-- Reads the records of a channel. -/
def ofChannel (id : ChannelId) (connection : Connection) : Except StoreFault (List Record) :=
  connection.whileOpen (connection.table.ofChannel id)

/-- Everything that waits in a queue is written. On a closed database nothing can be. -/
def drain (queue : Queue) (connection : Connection) : Connection :=
  if connection.isOpen then connection.withTable (queue.drain connection.table) else connection

/-- The worker takes the oldest record from a queue. On a closed database it is lost. -/
def work (queue : Queue) (connection : Connection) : Queue × Connection :=
  let (queue, table) := queue.work connection.table
  (queue, if connection.isOpen then connection.withTable table else connection)

end Connection

end ChannelServer
