import ChannelServer.Proofs.Database.Reopening

/-!
# What a server starts with

The channels of the settings are set up by operations that hand nothing to a store and give nobody
any rights.  Then the stored records are taken over.  So the session of a server that has just been
started is a reachable one that has handed over nothing, and its ledger is that of the table, for
the channels that are there and on top.

## Main results

* `Config.fresh_of_build`: nobody has rights in a registry that has been set up.
* `Server.prepare_eq_ok`: what it takes to start a server, and what is started.
* `Server.ledger_takeOver`: what is taken over from a table.
-/

namespace ChannelServer

open Session (Reachable onRegistry)

/-- Of stored records those are taken over that are about accounts and about top channels. -/
theorem Ledger.foldl_load {base : Registry} (records : List Record) (ledger : Ledger)
    (id : ChannelId) (who : Identity) :
    records.foldl (load base) ledger id who =
      if who.isRegistered && (base.channels.get? id).any (·.isTop) then ledger.put records id who
      else ledger id who := by
  induction records using List.reverseRecOn with
  | nil => exact (ite_self _).symm
  | append_singleton records record ih =>
      rw [List.foldl_concat, load, put_concat, Registry.loads]
      by_cases hkey : id = record.channel ∧ who = record.identity
      · obtain ⟨rfl, rfl⟩ := hkey
        split
        · rw [set, set, if_pos ⟨rfl, rfl⟩, if_pos ⟨rfl, rfl⟩]
        · rw [ih, if_neg ‹_›]
      · have hset (ledger : Ledger) :
            ledger.set record.channel record.identity record.rights id who = ledger id who :=
          if_neg hkey
        split
        · rw [hset, hset, ih]
        · rw [hset, ih]

/-! ## Setting up -/

/-- A registry that can be reached without handing anything over, and in which nobody has rights. -/
structure Registry.Fresh (limits : Limits) (registry : Registry) : Prop where
  reachable : Reachable .none limits (.start registry)
  ledger : registry.ledger = fun _ _ => none

namespace Registry

variable {limits : Limits} {registry registry' : Registry}

theorem fresh_empty (limits : Limits) : Fresh limits (.empty limits) :=
  ⟨.start, rfl⟩

/-- An operation on the registry that gives nobody any rights. -/
theorem Fresh.action {α : Type} (h : Fresh limits registry) {action : Action α}
    {answer : α → Answer} {operation : Operation} {a : α} (hok : action registry = .ok a registry')
    (hperform : operation.perform .none = onRegistry action >>= fun a => pure (answer a))
    (hafter : Ledger.after registry operation true (fun _ _ => none) = fun _ _ => none) :
    Fresh limits registry' := by
  have hstep : (Session.start registry).step .none operation =
      (.ok (answer a), .start registry') :=
    Session.step_of_ok hok hperform
  have hreachable := h.reachable.step operation
  have hledger := Session.ledger_step h.reachable operation
  rw [hstep] at hreachable hledger
  refine ⟨hreachable, hledger.trans ?_⟩
  rw [← hafter, ← h.ledger]
  rfl

end Registry

namespace Config

open Registry (Fresh)

variable {limits : Limits} {site site' : Site}

/-- An action on a registry under construction that gives nobody any rights. -/
theorem fresh_perform {α : Type} {action : Registry.Action α} {context : Fault → SettingsFault}
    {answer : α → Answer} {a : α} (h : Fresh limits site.registry) (operation : Operation)
    (hok : site.perform action context = .ok (a, site'))
    (hperform : operation.perform .none = onRegistry action >>= fun a => pure (answer a))
    (hafter : Ledger.after site.registry operation true (fun _ _ => none) = fun _ _ => none) :
    Fresh limits site'.registry := by
  unfold Site.perform at hok
  split at hok
  · rename_i haction
    cases hok
    exact h.action haction hperform hafter
  · cases hok

theorem clear_empty (owner : ChannelId) :
    Ledger.clear owner (fun _ _ => none) = fun _ _ => none := by
  funext id who
  exact ite_self none

/-- Adding a channel with its password and its parent gives nobody any rights. -/
theorem fresh_add {channel : ChannelSettings} (h : Fresh limits site.registry)
    (hadd : site.add channel = .ok site') : Fresh limits site'.registry := by
  unfold Site.add at hadd
  obtain ⟨info, -, hadd⟩ := bind_eq_ok.mp hadd
  obtain ⟨⟨id, added⟩, hadded, hadd⟩ := bind_eq_ok.mp hadd
  have hnamed : Fresh limits added.registry := fresh_perform h (.addChannel info) hadded rfl rfl
  -- With or without a password, the channel is then put below its parent and named.
  dsimp -zeta only at hadd
  extract_lets named below at hadd
  have hbelow {place : Site} (h : Fresh limits place.registry) (hadd : below place = .ok site') :
      Fresh limits site'.registry := by
    simp only [below] at hadd
    split at hadd
    · split at hadd
      · obtain ⟨⟨_, attached⟩, hattached, hsite⟩ := bind_eq_ok.mp hadd
        have hfresh := fresh_perform h (.attach _ _) hattached rfl (clear_empty _)
        cases hsite
        exact hfresh
      · cases hadd
    · cases hadd
      exact h
  split at hadd
  · obtain ⟨⟨_, locked⟩, hlocked, hadd⟩ := bind_eq_ok.mp hadd
    exact hbelow (fresh_perform hnamed (.setPassword _ _) hlocked rfl rfl) hadd
  · exact hbelow hnamed hadd

theorem fresh_addAll {channels : List ChannelSettings} (h : Fresh limits site.registry)
    (hadd : channels.foldlM Site.add site = .ok site') : Fresh limits site'.registry := by
  induction channels generalizing site with
  | nil =>
      cases hadd
      exact h
  | cons channel channels ih =>
      rw [List.foldlM_cons] at hadd
      obtain ⟨next, hnext, hrest⟩ := bind_eq_ok.mp hadd
      exact ih (fresh_add h hnext) hrest

/-- Nobody has rights in a registry that has been set up. -/
theorem fresh_of_build {settings : Settings} {registry : Registry}
    (h : settings.build = .ok registry) : Fresh settings.server.limits registry := by
  unfold Settings.build at h
  obtain ⟨_, -, h⟩ := bind_eq_ok.mp h
  obtain ⟨site, hsite, h⟩ := bind_eq_ok.mp h
  have hfresh := fresh_addAll (Registry.fresh_empty _) hsite
  split at h
  · cases h
    exact hfresh
  · cases h

end Config

/-! ## Starting -/

namespace Server

variable {disk : Disk} {settings : Config.Settings} {server : Server}

/-- What it takes to start a server, and what is started. -/
theorem prepare_eq_ok :
    prepare disk settings = .ok server ↔
      ∃ connection records registry, openDatabase disk settings = .ok connection ∧
        connection.all = .ok records ∧ settings.build = .ok registry ∧
        server = { settings, connection, session := .start (takeOver records registry) } := by
  have hmap {ε ε' α : Type} {x : Except ε α} {f : ε → ε'} {a : α} :
      x.mapError f = .ok a ↔ x = .ok a := by
    cases x <;> simp [Except.mapError]
  unfold prepare
  rw [bind_eq_ok]
  constructor
  · rintro ⟨connection, hconnection, h⟩
    obtain ⟨records, hrecords, h⟩ := bind_eq_ok.mp h
    obtain ⟨registry, hregistry, h⟩ := bind_eq_ok.mp h
    exact ⟨connection, records, registry, hmap.mp hconnection, hmap.mp hrecords, hmap.mp hregistry,
      (Except.ok.inj h).symm⟩
  · rintro ⟨connection, records, registry, hconnection, hrecords, hregistry, rfl⟩
    refine ⟨connection, hmap.mpr hconnection, bind_eq_ok.mpr ⟨records, hmap.mpr hrecords, ?_⟩⟩
    exact bind_eq_ok.mpr ⟨registry, hmap.mpr hregistry, rfl⟩

section TakeOver

variable {limits : Limits} {registry : Registry}

theorem takeOver_eq (records : List Record) (registry : Registry) :
    takeOver records registry = leaves (Registry.loadRecords records) registry := by
  rw [takeOver, leaves]
  cases Registry.loadRecords records registry <;> rfl

/-- Taking stored records over is an operation of the session. -/
theorem start_takeOver (store : Store) (records : List Record) (registry : Registry) :
    Session.start (takeOver records registry) =
      ((Session.start registry).step store (.loadRecords records)).2 := by
  rw [Session.step_snd, Operation.perform, leaves_bind_pure, takeOver_eq, leaves, leaves,
    onRegistry]
  simp only [Session.start]
  cases Registry.loadRecords records registry <;> rfl

/-- A session that has just been started is reachable. -/
theorem reachable_takeOver (h : registry.Fresh limits) (records : List Record) :
    Reachable .none limits (.start (takeOver records registry)) := by
  rw [start_takeOver .none]
  exact h.reachable.step _

/-- What is taken over from a table: what it says of accounts, in the channels that are on top. -/
theorem ledger_takeOver (h : registry.Fresh limits) {table : Table} (hordered : table.Ordered)
    {records : List Record} (hall : table.all = .ok records) (id : ChannelId) (who : Identity) :
    (takeOver records registry).ledger id who =
      if (registry.channels.get? id).any (·.isTop) then table.ledger id who else none := by
  have hload : (takeOver records registry).ledger =
      records.foldl (Ledger.load registry) registry.ledger := by
    rw [takeOver_eq, Registry.ledger_loadRecords records fun _ => Iff.rfl]
  have hlookup := @Ledger.foldl_load registry records (fun _ _ => none) id who
  rw [hload, h.ledger, hlookup, hordered.put_all hall]
  cases who with
  | registered account => rfl
  | unregistered player => exact (ite_self none).symm

end TakeOver

end Server

end ChannelServer
