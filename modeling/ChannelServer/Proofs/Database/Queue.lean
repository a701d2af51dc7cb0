import ChannelServer.Database.Connection
import ChannelServer.Proofs.Database.Table
import Mathlib.Logic.Relation

/-!
# Records on their way to the table

Whoever holds a queue may send a record at any time, and the worker may take one at any time.  When
nobody holds the queue any more the worker takes what is left and ends.  A `Writing` is such a
process at one moment, and `Writing.Reaches` follows it through any order of these steps.

One invariant says all of it: what has been sent is what has been written, then what waits.  The
records of sessions are among those written and leave no trace in the table.

## Main results

* `Writing.Kept.step`, `Writing.kept_of_reaches`: the invariant.
* `Writing.exists_ended`: the worker can always go on until it ends.
* `Writing.table_of_reaches`: what is in the table, and what is read from it.
-/

namespace ChannelServer

/-! ## Rows of a connection -/

theorem Disk.table_write (disk : Disk) (path : FilePath) (table : Table) :
    (disk.write path table).table path = table := by
  rw [write, Disk.table, List.lookup_cons, beq_self_eq_true]
  rfl

namespace Connection

variable {connection : Connection}

theorem table_withTable (table : Table) (connection : Connection) :
    (connection.withTable table).table = table := by
  obtain ⟨location, disk, memory, isOpen⟩ := connection
  cases location with
  | memory shared => rfl
  | file path => exact disk.table_write path table

theorem isOpen_withTable (table : Table) (connection : Connection) :
    (connection.withTable table).isOpen = connection.isOpen := by
  obtain ⟨location, disk, memory, isOpen⟩ := connection
  cases location <;> rfl

theorem location_withTable (table : Table) (connection : Connection) :
    (connection.withTable table).location = connection.location := by
  obtain ⟨location, disk, memory, isOpen⟩ := connection
  cases location <;> rfl

theorem disk_withTable {path : FilePath} (h : connection.location = .file path) (table : Table) :
    (connection.withTable table).disk = connection.disk.write path table := by
  rw [withTable, h]

/-- The worker of an open database writes the oldest record. -/
theorem work_of_cons (hopen : connection.isOpen = true) {queue : Queue} {record : Record}
    {rest : List Record} (hpending : queue.pending = record :: rest) :
    connection.work queue =
      ({ queue with pending := rest },
        connection.withTable (Queue.write connection.table record)) := by
  rw [work, Queue.work, hpending]
  simp only [hopen, if_true]

/-- If nothing waits, the worker of an open database writes what is there. -/
theorem work_of_nil (hopen : connection.isOpen = true) {queue : Queue}
    (hpending : queue.pending = []) :
    connection.work queue = (queue, connection.withTable connection.table) := by
  rw [work, Queue.work, hpending]
  simp only [hopen, if_true]

theorem all_of_open (hopen : connection.isOpen = true) : connection.all = connection.table.all :=
  if_pos hopen

theorem ofChannel_of_open (hopen : connection.isOpen = true) (id : ChannelId) :
    connection.ofChannel id = connection.table.ofChannel id :=
  if_pos hopen

end Connection

/-! ## The process -/

/-- A database, its queue, and what has become of those who hold the queue and of the worker. -/
structure Writing where
  connection : Connection
  queue : Queue := {}
  /-- All records that have been sent, oldest first. -/
  sent : List Record := []
  /-- Nobody holds the queue any more. -/
  isClosed : Bool := false
  /-- The worker has ended. -/
  hasEnded : Bool := false

namespace Writing

/-- What can happen next. -/
inductive Step : Writing → Writing → Prop where
  | send {w : Writing} {record : Record} {queue : Queue} (held : w.isClosed = false)
      (taken : w.queue.push record = .ok queue) :
      Step w { w with queue, sent := w.sent ++ [record] }
  /-- The worker takes the oldest record, if there is one. -/
  | work {w : Writing} (runs : w.hasEnded = false) :
      Step w
        { w with
          queue := (w.connection.work w.queue).1
          connection := (w.connection.work w.queue).2 }
  | close {w : Writing} : Step w { w with isClosed := true }
  | finish {w : Writing} (closed : w.isClosed = true) (done : w.queue.pending = []) :
      Step w { w with hasEnded := true }

/-- What can happen after some time. -/
abbrev Reaches : Writing → Writing → Prop := Relation.ReflTransGen Step

/-- What has been sent is what has been written to the table, then what waits.  The worker ends only
when nothing waits and nobody can send. -/
structure Kept (initial : Table) (w : Writing) (written : List Record) : Prop where
  isOpen : w.connection.isOpen = true
  runs : w.queue.isStopped = false
  sent : w.sent = written ++ w.queue.pending
  table : w.connection.table = written.foldl Queue.write initial
  ended : w.hasEnded = true → w.isClosed = true ∧ w.queue.pending = []

section Kept

variable {initial : Table} {w w' : Writing} {written : List Record}

/-- A queue whose worker runs takes every record. -/
theorem push_of_runs {queue : Queue} (h : queue.isStopped = false) (record : Record) :
    queue.push record = .ok { queue with pending := queue.pending ++ [record] } := by
  rw [Queue.push, h]
  rfl

/-- One step more is written, or nothing more is. -/
theorem Kept.step (h : Kept initial w written) (hstep : Step w w') :
    ∃ written', Kept initial w' written' := by
  cases hstep with
  | send held taken =>
      rw [push_of_runs h.runs] at taken
      cases taken
      have hruns : ¬ w.hasEnded = true := fun hended => by
        rw [(h.ended hended).1] at held
        cases held
      exact ⟨written, h.isOpen, h.runs, by rw [h.sent, List.append_assoc], h.table,
        fun hended => absurd hended hruns⟩
  | work runs =>
      have hruns : ¬ w.hasEnded = true := by rw [runs]; exact Bool.false_ne_true
      cases hpending : w.queue.pending with
      | nil =>
          rw [Connection.work_of_nil h.isOpen hpending]
          exact ⟨written, (Connection.isOpen_withTable _ _).trans h.isOpen, h.runs, h.sent,
            (Connection.table_withTable _ _).trans h.table, fun hended => absurd hended hruns⟩
      | cons record rest =>
          rw [Connection.work_of_cons h.isOpen hpending]
          refine ⟨written ++ [record], (Connection.isOpen_withTable _ _).trans h.isOpen, h.runs,
            ?_, ?_, fun hended => absurd hended hruns⟩
          · rw [h.sent, hpending, List.append_assoc]
            rfl
          · rw [Connection.table_withTable, h.table, List.foldl_concat]
  | close =>
      exact ⟨written, h.isOpen, h.runs, h.sent, h.table, fun hended => ⟨rfl, (h.ended hended).2⟩⟩
  | finish closed done =>
      exact ⟨written, h.isOpen, h.runs, h.sent, h.table, fun _ => ⟨closed, done⟩⟩

/-- The invariant holds from the moment the worker is started. -/
theorem kept_of_reaches {connection : Connection} (hopen : connection.isOpen = true)
    (h : Reaches { connection } w) : ∃ written, Kept connection.table w written := by
  induction h with
  | refl => exact ⟨[], hopen, rfl, rfl, rfl, by rintro ⟨⟩⟩
  | tail _ hstep ih =>
      obtain ⟨written, hkept⟩ := ih
      exact hkept.step hstep

/-- Whatever waits, records of sessions included, the worker takes it. -/
theorem exists_empty (h : Kept initial w written) (hruns : w.hasEnded = false) :
    ∃ w', Reaches w w' ∧ w'.queue.pending = [] ∧ w'.sent = w.sent := by
  generalize hpending : w.queue.pending = pending
  induction pending generalizing w written with
  | nil => exact ⟨w, .refl, hpending, rfl⟩
  | cons record rest ih =>
      have hstep := Step.work hruns
      obtain ⟨written', hkept⟩ := h.step hstep
      obtain ⟨w', hreaches, hw'⟩ := ih hkept hruns (by
        rw [Connection.work_of_cons h.isOpen hpending])
      exact ⟨w', .head hstep hreaches, hw'⟩

/-- From every moment on the worker can go on until it ends. -/
theorem exists_ended (h : Kept initial w written) :
    ∃ w', Reaches w w' ∧ w'.hasEnded = true ∧ w'.sent = w.sent := by
  cases hended : w.hasEnded with
  | true => exact ⟨w, .refl, hended, rfl⟩
  | false =>
      obtain ⟨w', hreaches, hempty, hsent⟩ := exists_empty h hended
      exact ⟨_, (hreaches.tail .close).tail (.finish rfl hempty), rfl, hsent⟩

end Kept

/-- At every moment the rows of the accounts in a part of what has been sent have been put into the
table, in the order of sending, and the rest waits; nobody is refused.  What is read has strictly
ascending keys, and for each key the last record of those that were there before and those that have
been written, with the rights that have a name.  A channel's records are its part of that.  The
worker can go on until it ends, and when it has ended all is written. -/
theorem table_of_reaches {connection : Connection} {before : List Record} {w : Writing}
    (hopen : connection.isOpen = true) (hordered : connection.table.Ordered)
    (hbefore : connection.all = .ok before) (h : Reaches { connection } w) :
    (∃ written rows, w.sent = written ++ w.queue.pending ∧
      (w.hasEnded = true → written = w.sent) ∧
      (written.filter (·.identity.isRegistered)).mapM Row.ofRecord = .ok rows ∧
      w.connection.table = rows.foldl (fun table row => table.put row) connection.table ∧
      ∃ records, w.connection.all = .ok records ∧ records.Pairwise Record.Precedes ∧
        (∀ record, record ∈ records ↔ ∃ earlier last later,
          before ++ written = earlier ++ last :: later ∧ last.identity.isRegistered = true ∧
            record = last.known ∧ ∀ other ∈ later,
              ¬ (other.channel = last.channel ∧ other.identity = last.identity)) ∧
        ∀ id, w.connection.ofChannel id = .ok (records.filter (·.channel = id))) ∧
    (∀ record, ∃ queue, w.queue.push record = .ok queue) ∧
    ∃ w', Reaches w w' ∧ w'.hasEnded = true ∧ w'.sent = w.sent := by
  obtain ⟨written, hkept⟩ := kept_of_reaches hopen h
  obtain ⟨rows, hrows, hput⟩ := Table.foldl_write connection.table written
  rw [Connection.all_of_open hopen] at hbefore
  obtain ⟨records, hrecords⟩ := Table.exists_all_foldl_write hbefore written
  have hafter := hordered.foldl_write written
  refine ⟨⟨written, rows, hkept.sent, fun hended => ?_, hrows, hkept.table.trans hput, records, ?_,
    hafter.pairwise_all hrecords, fun record => hordered.mem_all_foldl_write hbefore hrecords,
    fun id => ?_⟩, fun record => ⟨_, push_of_runs hkept.runs record⟩, exists_ended hkept⟩
  · rw [hkept.sent, (hkept.ended hended).2, List.append_nil]
  · rw [Connection.all_of_open hkept.isOpen, hkept.table]
    exact hrecords
  · rw [Connection.ofChannel_of_open hkept.isOpen, hkept.table]
    exact Table.ofChannel_of_all hrecords id

/-- Three records are sent, the second one of a session, and two are written.  The row that was
there has a right without a name, which is not read. -/
theorem table_of_reaches_of_session :
    let connection : Connection := { location := .memory false, memory := [⟨1, 7, 0x21⟩] }
    let voice : Record := ⟨⟨2⟩, .registered ⟨1⟩, .voice⟩
    let guest : Record := ⟨⟨1⟩, .unregistered ⟨3⟩, .voice⟩
    let operator : Record := ⟨⟨1⟩, .registered ⟨7⟩, .operator⟩
    ∃ w, Reaches { connection } w ∧ w.sent = [voice, guest, operator] ∧
      w.queue.pending = [operator] ∧
      w.connection.all = .ok [⟨⟨1⟩, .registered ⟨7⟩, .admin⟩, voice] ∧
      w.connection.ofChannel ⟨2⟩ = .ok [voice] ∧
      ∃ w', Reaches w w' ∧ w'.hasEnded = true ∧ w'.sent = w.sent := by
  intro connection voice guest operator
  have hsent : Reaches { connection }
      ⟨connection, ⟨[voice, guest, operator], false⟩, [voice, guest, operator], false, false⟩ :=
    ((Relation.ReflTransGen.refl.tail (@Step.send _ voice _ rfl rfl)).tail
      (@Step.send _ guest _ rfl rfl)).tail (@Step.send _ operator _ rfl rfl)
  have hreaches := (hsent.tail (.work rfl)).tail (.work rfl)
  have hordered : connection.table.Ordered := List.pairwise_singleton _ _
  have hbefore : connection.all = .ok [⟨⟨1⟩, .registered ⟨7⟩, .admin⟩] := by
    decide +kernel
  obtain ⟨⟨written, rows, -, -, -, -, records, hall, -, -, hchannel⟩, -, hend⟩ :=
    table_of_reaches rfl hordered hbefore hreaches
  have hrecords : records = [⟨⟨1⟩, .registered ⟨7⟩, .admin⟩, voice] := by
    refine Except.ok.inj (hall.symm.trans ?_)
    decide +kernel
  rw [hrecords] at hall hchannel
  exact ⟨_, hreaches, rfl, rfl, hall, hchannel ⟨2⟩, hend⟩

end Writing

end ChannelServer
