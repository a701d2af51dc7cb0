import ChannelServer.Config.Build
import ChannelServer.Config.File
import ChannelServer.Database.Connection
import ChannelServer.Operation

/-!
# The server

Starting a server opens the database, reads what is stored, sets up the channels and takes the
stored privileges over. From then on the session hands its records to a queue, and a worker writes
them into the table. Shutting down waits for the worker and closes the database, unless somebody
still holds the session: then the worker is stopped and what waits in the queue is lost.
-/

namespace ChannelServer

/-- Why a server does not start. -/
inductive ServerFault where
  | databaseNotOpened (cause : StoreFault)
  | recordsNotRead (cause : StoreFault)
  | settings (cause : Config.SettingsFault)
deriving DecidableEq, Repr

namespace ServerFault

/-- The message of a fault ends with that of its cause. -/
def message : ServerFault → String
  | databaseNotOpened cause =>
    s!"Privilegien-Datenbank konnte nicht geoeffnet werden: {cause.message}"
  | recordsNotRead cause =>
    s!"Gespeicherte Privilegien konnten nicht gelesen werden: {cause.message}"
  | settings cause => cause.message

end ServerFault

/-- A server that has been started. -/
structure Server where
  settings : Config.Settings
  session : Session
  connection : Connection
  /-- What the session has handed over and the worker has not taken yet. -/
  queue : Queue := {}

namespace Server

/-- Opens the database of a server. The database in memory needs no further settings. -/
def openDatabase (disk : Disk) (settings : Config.Settings) : Except StoreFault Connection :=
  if settings.database.url = DatabaseUrl.memory then .ok (.inMemory disk)
  else Connection.openDatabase disk settings.database

/-- The registry with stored records taken over. -/
def takeOver (records : List Record) (registry : Registry) : Registry :=
  match Registry.loadRecords records registry with
  | .ok _ registry => registry
  | .error _ registry => registry

/-- Starts a server. -/
def prepare (disk : Disk) (settings : Config.Settings) : Except ServerFault Server := do
  let connection ← (openDatabase disk settings).mapError .databaseNotOpened
  let records ← connection.all.mapError .recordsNotRead
  let registry ← settings.build.mapError .settings
  return { settings, connection, session := .start (takeOver records registry) }

/-- The store of a running server: the queue, as long as the worker runs. -/
def store (server : Server) : Store := fun _ record =>
  (server.queue.push record).map fun _ => ()

/-- Carries out an operation on a running server. What the session hands over goes into the queue,
unless the worker has stopped. -/
def step (operation : Operation) (server : Server) : Except Fault Answer × Server :=
  let (answer, session) := server.session.step server.store operation
  let handed := session.handed.drop server.session.handed.length
  let queue :=
    if server.queue.isStopped then server.queue
    else { server.queue with pending := server.queue.pending ++ handed }
  (answer, { server with session, queue })

/-- The worker takes the oldest record from the queue. -/
def work (server : Server) : Server :=
  let (queue, connection) := server.connection.work server.queue
  { server with queue, connection }

/-- Shuts a server down. While the session is still held elsewhere, the worker is stopped; otherwise
it takes everything that waits. -/
def shutDown (held : Bool) (server : Server) : Server :=
  let connection :=
    if held then server.connection else server.connection.drain server.queue
  { server with queue := server.queue.stop, connection := connection.close }

end Server

end ChannelServer
