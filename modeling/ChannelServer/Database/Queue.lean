import ChannelServer.Database.Table
import ChannelServer.Fault

/-!
# The queue before the table

A session must not wait for the table, so its records go into a queue, and a worker takes them from
there one by one in the order in which they came. A record that the table refuses is skipped; the
worker goes on with the next. Once the worker has stopped, the queue takes no more.
-/

namespace ChannelServer

/-- Records that wait for the worker, oldest first. -/
structure Queue where
  pending : List Record := []
  isStopped : Bool := false
deriving Repr

namespace Queue

/-- Puts a record at the end of the queue. -/
def push (record : Record) (queue : Queue) : Except Fault Queue :=
  if queue.isStopped then .error (.notStored .workerStopped)
  else .ok { queue with pending := queue.pending ++ [record] }

/-- Stops the worker. What waits is lost. -/
def stop (_ : Queue) : Queue := { pending := [], isStopped := true }

/-- What the worker does with one record. -/
def write (table : Table) (record : Record) : Table :=
  match table.save record with
  | .ok table => table
  | .error _ => table

/-- The worker takes the oldest record, if there is one. -/
def work (queue : Queue) (table : Table) : Queue × Table :=
  match queue.pending with
  | [] => (queue, table)
  | record :: rest => ({ queue with pending := rest }, write table record)

/-- The table after the worker has taken everything. -/
def drain (queue : Queue) (table : Table) : Table :=
  queue.pending.foldl write table

end Queue

end ChannelServer
