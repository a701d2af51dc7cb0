import ChannelServer.Proofs.Server.Start

/-!
# A running server

While a server runs, operations are performed on its session and the worker writes what is handed
over, in any order.  Neither waits for the other: the session does what it would do without a store,
and what it has handed over is on its way to the table.  The database stays where it is.

## Main results

* `Server.Runs.happen`: what stays as it is whatever happens.
* `Server.Runs.reaches_run`, `Server.Runs.session_run`: the queue and the session of a running
  server.
* `Server.Runs.disk_shutDown`: everything that was handed over is in the file after a shutdown.
-/

namespace ChannelServer

open Session (Reachable)

/-- What may happen to a running server. -/
inductive Event where
  | perform (operation : Operation)
  /-- The worker takes the oldest record. -/
  | work

namespace Event

/-- The operation that is performed. -/
def operation? : Event → Option Operation
  | perform operation => some operation
  | work => none

theorem operation?_eq_some {event : Event} {operation : Operation} :
    event.operation? = some operation ↔ event = .perform operation := by
  cases event with
  | perform operation' => exact Option.some_inj.trans (perform.injEq _ _).symm.to_iff
  | work => exact iff_of_false (by rintro ⟨⟩) (by rintro ⟨⟩)

theorem mem_operations {events : List Event} {operation : Operation} :
    operation ∈ events.filterMap operation? ↔ perform operation ∈ events := by
  rw [List.mem_filterMap]
  constructor
  · rintro ⟨event, hevent, hoperation⟩
    exact operation?_eq_some.mp hoperation ▸ hevent
  · exact fun hevent => ⟨_, hevent, rfl⟩

end Event

/-! ## The queue -/

/-- Whoever holds a queue may send several records one after the other. -/
theorem Writing.reaches_sends {w : Writing} (hheld : w.isClosed = false)
    (hruns : w.queue.isStopped = false) (records : List Record) :
    Reaches w
      { w with
        queue := { w.queue with pending := w.queue.pending ++ records }
        sent := w.sent ++ records } := by
  induction records using List.reverseRecOn with
  | nil =>
      rw [List.append_nil, List.append_nil]
  | append_singleton records record ih =>
      rw [← List.append_assoc, ← List.append_assoc]
      exact ih.tail (@Step.send _ record _ hheld
        (@push_of_runs { w.queue with pending := w.queue.pending ++ records } hruns record))

namespace Server

variable {disk : Disk} {path : FilePath} {limits : Limits} {server : Server}

/-- The server after something has happened. -/
def happen (server : Server) : Event → Server
  | .perform operation => (server.step operation).2
  | .work => server.work

/-- The server after several things have happened. -/
def run (events : List Event) (server : Server) : Server :=
  events.foldl happen server

/-- The database and the queue of a running server, and what its session has handed over. -/
def writing (server : Server) : Writing where
  connection := server.connection
  queue := server.queue
  sent := server.session.handed

/-- A server with its database in a file of a disk. -/
structure Runs (disk : Disk) (path : FilePath) (limits : Limits) (server : Server) : Prop where
  reachable : Reachable .none limits server.session
  isOpen : server.connection.isOpen = true
  location : server.connection.location = .file path
  file : disk.WithFile path server.connection.disk
  runs : server.queue.isStopped = false

/-- A queue whose worker runs refuses nothing. -/
theorem store_of_runs (h : server.queue.isStopped = false) : server.store = Store.none := by
  funext handed record
  rw [store, Writing.push_of_runs h]
  rfl

namespace Runs

/-- An operation is performed on the session, and what is handed over goes into the queue. -/
theorem step_eq (h : Runs disk path limits server) (operation : Operation) :
    (server.step operation).2 =
      { server with
        session := (server.session.step .none operation).2
        queue := { server.queue with
          pending := server.queue.pending ++ server.session.registry.handedOver operation } } := by
  have hhanded := Session.handed_step h.reachable operation
  rw [step, store_of_runs h.runs]
  simp only [h.runs, hhanded, List.drop_left, Bool.false_eq_true, if_false]

/-- The worker takes a record from the queue or not, and writes to the file. -/
theorem work_eq (h : Runs disk path limits server) :
    ∃ pending table, server.work =
      { server with
        queue := { server.queue with pending }
        connection := server.connection.withTable table } := by
  rw [work]
  cases hpending : server.queue.pending with
  | nil =>
      rw [Connection.work_of_nil h.isOpen hpending]
      exact ⟨_, _, rfl⟩
  | cons record rest =>
      rw [Connection.work_of_cons h.isOpen hpending]
      exact ⟨_, _, rfl⟩

/-- Whatever happens, the server runs on with its database in the same file. -/
theorem happen (h : Runs disk path limits server) (event : Event) :
    Runs disk path limits (server.happen event) := by
  cases event with
  | perform operation =>
      rw [Server.happen, h.step_eq]
      exact ⟨h.reachable.step operation, h.isOpen, h.location, h.file, h.runs⟩
  | work =>
      obtain ⟨pending, table, hwork⟩ := h.work_eq
      rw [Server.happen, hwork]
      refine ⟨h.reachable, (Connection.isOpen_withTable _ _).trans h.isOpen,
        (Connection.location_withTable _ _).trans h.location, ?_, h.runs⟩
      rw [Connection.disk_withTable h.location]
      exact h.file.write table

/-- What happens to the queue is what may happen to any queue. -/
theorem reaches_happen (h : Runs disk path limits server) (event : Event) :
    Writing.Reaches server.writing (server.happen event).writing := by
  cases event with
  | perform operation =>
      have hsent : (server.session.step .none operation).2.handed =
          server.session.handed ++ server.session.registry.handedOver operation :=
        Session.handed_step h.reachable operation
      have hsends := @Writing.reaches_sends server.writing rfl h.runs
        (server.session.registry.handedOver operation)
      rw [Server.happen, h.step_eq]
      unfold writing
      rw [hsent]
      exact hsends
  | work => exact .single (.work rfl)

/-- Only operations change the session, and it does what it would do without a store. -/
theorem session_happen (h : Runs disk path limits server) (event : Event) :
    (server.happen event).session =
      server.session.run .none ((Event.operation? event).toList) := by
  cases event with
  | perform operation =>
      rw [Server.happen, h.step_eq]
      rfl
  | work => rfl

/-! ### Runs -/

theorem run (h : Runs disk path limits server) (events : List Event) :
    Runs disk path limits (server.run events) := by
  induction events generalizing server with
  | nil => exact h
  | cons event events ih => exact ih (h.happen event)

theorem reaches_run (h : Runs disk path limits server) (events : List Event) :
    Writing.Reaches server.writing (server.run events).writing := by
  induction events generalizing server with
  | nil => exact .refl
  | cons event events ih => exact (h.reaches_happen event).trans (ih (h.happen event))

theorem session_run (h : Runs disk path limits server) (events : List Event) :
    (server.run events).session =
      server.session.run .none (events.filterMap Event.operation?) := by
  induction events generalizing server with
  | nil => rfl
  | cons event events ih =>
      refine (ih (h.happen event)).trans ?_
      rw [h.session_happen]
      cases event <;> rfl

/-! ### Shutting down -/

/-- When nobody else holds the session, a shutdown writes all that has been handed over to the file,
in the place of what it says of the same keys. -/
theorem disk_shutDown (h : Runs disk path limits server) {initial : Table} {written : List Record}
    (hkept : Writing.Kept initial server.writing written) :
    disk.WithFile path (server.shutDown false).connection.disk ∧
      (server.shutDown false).connection.disk.table path =
        server.session.handed.foldl Queue.write initial := by
  have hdisk : (server.shutDown false).connection.disk =
      server.connection.disk.write path (server.queue.drain server.connection.table) := by
    rw [shutDown, if_neg Bool.false_ne_true, Connection.drain, if_pos h.isOpen]
    exact Connection.disk_withTable h.location _
  have hsent : server.session.handed = written ++ server.queue.pending := hkept.sent
  have htable : server.connection.table = written.foldl Queue.write initial := hkept.table
  rw [hdisk]
  refine ⟨h.file.write _, ?_⟩
  rw [Disk.table_write, Queue.drain, htable, hsent, List.foldl_append]

end Runs

section Prepare

variable {settings : Config.Settings} (h : prepare disk settings = .ok server)

include h

/-- In a server that has been started nothing waits, and nothing has been handed over. -/
theorem writing_of_prepare : server.writing = { connection := server.connection } := by
  obtain ⟨connection, records, registry, -, -, -, rfl⟩ := prepare_eq_ok.mp h
  rfl

theorem handed_of_prepare : server.session.handed = [] :=
  congrArg Writing.sent (writing_of_prepare h)

theorem reachable_of_prepare : Reachable .none settings.server.limits server.session := by
  obtain ⟨connection, records, registry, -, -, hregistry, rfl⟩ := prepare_eq_ok.mp h
  exact reachable_takeOver (Config.fresh_of_build hregistry) records

theorem openDatabase_of_prepare : openDatabase disk settings = .ok server.connection := by
  obtain ⟨connection, records, registry, hconnection, -, -, rfl⟩ := prepare_eq_ok.mp h
  exact hconnection

variable (hpath : server.connection.location = .file path)

include hpath

/-- A database in a file is made when the server is started. -/
theorem connection_of_prepare :
    server.connection = { location := .file path, disk := disk.make path } := by
  obtain ⟨-, -, hconnection, -⟩ := openDatabase_eq_file (openDatabase_of_prepare h) hpath
  exact hconnection

/-- A server that has been started with its database in a file runs. -/
theorem runs_of_prepare : Runs disk path settings.server.limits server := by
  have hconnection := connection_of_prepare h hpath
  have hqueue := congrArg Writing.queue (writing_of_prepare h)
  refine ⟨reachable_of_prepare h, ?_, hpath, ?_, congrArg Queue.isStopped hqueue⟩
  · rw [hconnection]
  · rw [hconnection]
    exact disk.withFile_make path

end Prepare

end Server

end ChannelServer
