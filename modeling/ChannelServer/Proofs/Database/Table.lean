import ChannelServer.Database.Queue
import ChannelServer.Proofs.Ledger.Handed

/-!
# What a table says

A table that can be read is a ledger of rights without unnamed ones.  Reading and writing agree on
this: a row can be read exactly if it is the row of a record, and then what is read is that record
with the rights that have a name.  So to write a record is to set an entry of the ledger.

No key is twice in a table, because its rows are in strict order.  Writing keeps the order.  It is
needed only where the rows are compared with the ledger: looking into a table that is out of order
would find the first row of a key.

## Main results

* `Row.record_eq_ok`: when a row can be read, and what is read then.
* `Ordered.put`, `ledger_put`: what writing does to the order and to the ledger.
* `ledger_foldl_write`: what writing a sequence of records does to the ledger.
* `Ordered.mem_all_iff`, `Ordered.pairwise_all`, `ofChannel_of_all`: what is read from a table.
-/

namespace ChannelServer

/-! ## Rights and records -/

theorem Rights.known_known (rights : Rights) : rights.known.known = rights.known := by
  rw [known, known, UInt16.and_assoc, UInt16.and_self]

namespace Record

/-- The record as it is read after it has been saved. -/
def known (record : Record) : Record := { record with rights := record.rights.known }

/-- The records are about accounts, and the key of the first one comes before that of the second. -/
def Precedes (a b : Record) : Prop :=
  ∃ account account', a.identity = .registered account ∧ b.identity = .registered account' ∧
    (a.channel.value < b.channel.value ∨ a.channel = b.channel ∧ account.value < account'.value)

/-- Records with the same key do not precede each other. -/
theorem Precedes.ne_key {a b : Record} (h : a.Precedes b) :
    ¬ (b.channel = a.channel ∧ b.identity = a.identity) := by
  rintro ⟨hchannel, hidentity⟩
  obtain ⟨account, account', ha, hb, hless | ⟨-, hless⟩⟩ := h
  · rw [hchannel] at hless
    exact UInt32.lt_irrefl _ hless
  · rw [ha, hb] at hidentity
    cases hidentity
    exact UInt32.lt_irrefl _ hless

end Record

theorem Identity.isRegistered_iff {identity : Identity} :
    identity.isRegistered = true ↔ ∃ account, identity = .registered account := by
  cases identity with
  | registered account => exact iff_of_true rfl ⟨account, rfl⟩
  | unregistered player => exact iff_of_false Bool.false_ne_true (by rintro ⟨_, ⟨⟩⟩)

/-! ## Rows -/

namespace Row

variable {a b c row : Row} {record : Record}

/-- The row has the key of an account in a channel. -/
def isAbout (id : ChannelId) (account : AccountId) (row : Row) : Bool :=
  row.channel = id.value.toNat && row.account = account.value.toNat

theorem isAbout_iff {id : ChannelId} {account : AccountId} :
    row.isAbout id account = true ↔
      row.channel = id.value.toNat ∧ row.account = account.value.toNat := by
  rw [isAbout, Bool.and_eq_true, decide_eq_true_iff, decide_eq_true_iff]

theorem sameKey_iff :
    a.sameKey b = true ↔ a.channel = b.channel ∧ a.account = b.account := by
  rw [sameKey, Bool.and_eq_true, decide_eq_true_iff, decide_eq_true_iff]

theorem before_iff :
    a.before b = true ↔
      a.channel < b.channel ∨ a.channel = b.channel ∧ a.account < b.account := by
  rw [before, Bool.or_eq_true, Bool.and_eq_true, decide_eq_true_iff, decide_eq_true_iff,
    decide_eq_true_iff]

theorem before_trans (h : a.before b = true) (h' : b.before c = true) : a.before c = true := by
  rw [before_iff] at h h' ⊢
  omega

/-- Of two rows with different keys one comes before the other. -/
theorem before_of_not_before (hkey : ¬ a.sameKey b = true) (h : ¬ a.before b = true) :
    b.before a = true := by
  rw [sameKey_iff] at hkey
  rw [before_iff] at h ⊢
  omega

/-- Only the key counts for the order. -/
theorem before_of_sameKey (hkey : a.sameKey b = true) (h : b.before c = true) :
    a.before c = true := by
  rw [sameKey_iff] at hkey
  rw [before_iff] at h ⊢
  omega

theorem isAbout_congr (hkey : a.sameKey b = true) (id : ChannelId) (account : AccountId) :
    a.isAbout id account = b.isAbout id account := by
  obtain ⟨hchannel, haccount⟩ := sameKey_iff.mp hkey
  rw [isAbout, isAbout, hchannel, haccount]

theorem ofRecord_eq_ok :
    ofRecord record = .ok row ↔ ∃ account, record.identity = .registered account ∧
      row = ⟨record.channel.value.toNat, account.value.toNat, record.rights.bits.toNat⟩ := by
  unfold ofRecord
  cases record.identity with
  | registered account =>
      constructor
      · intro h
        exact ⟨account, rfl, (Except.ok.inj h).symm⟩
      · rintro ⟨_, ⟨⟩, hrow⟩
        exact congrArg Except.ok hrow.symm
  | unregistered player =>
      constructor
      · intro h
        cases h
      · rintro ⟨_, ⟨⟩, -⟩

/-- A record of an account has a row. -/
theorem exists_ofRecord (h : record.identity.isRegistered = true) :
    ∃ row, ofRecord record = .ok row := by
  obtain ⟨account, haccount⟩ := Identity.isRegistered_iff.mp h
  exact ⟨_, ofRecord_eq_ok.mpr ⟨account, haccount, rfl⟩⟩

theorem isRegistered_of_ofRecord (h : ofRecord record = .ok row) :
    record.identity.isRegistered = true := by
  obtain ⟨account, haccount, -⟩ := ofRecord_eq_ok.mp h
  exact Identity.isRegistered_iff.mpr ⟨account, haccount⟩

/-- A row is about the identity and the channel of its record. -/
theorem isAbout_of_ofRecord (h : ofRecord record = .ok row) (id : ChannelId)
    (account : AccountId) :
    row.isAbout id account = true ↔
      id = record.channel ∧ .registered account = record.identity := by
  obtain ⟨account', haccount, rfl⟩ := ofRecord_eq_ok.mp h
  rw [isAbout_iff, haccount, Identity.registered.injEq]
  constructor
  · rintro ⟨hchannel, haccount⟩
    have hid := UInt32.toNat_inj.mp (Int.ofNat_inj.mp hchannel)
    have hvalue := UInt32.toNat_inj.mp (Int.ofNat_inj.mp haccount)
    exact ⟨by rw [← ChannelId.mk.injEq] at hid; exact hid.symm,
      by rw [← AccountId.mk.injEq] at hvalue; exact hvalue.symm⟩
  · rintro ⟨rfl, rfl⟩
    exact ⟨rfl, rfl⟩

theorem word_eq_ok {column : Column} {values n : Nat} {value : Int} :
    word column values value = .ok n ↔ value = n ∧ n < values := by
  unfold word
  split
  · rename_i h
    rw [Except.ok.injEq]
    omega
  · rename_i h
    constructor
    · rintro ⟨⟩
    · omega

/-- What is read of a row, if its columns hold words. -/
theorem record_mk {channel account rights : Nat} (hchannel : channel < UInt32.size)
    (haccount : account < UInt32.size) (hrights : rights < UInt16.size) :
    Row.record ⟨channel, account, rights⟩ =
      .ok ⟨⟨.ofNat channel⟩, .registered ⟨.ofNat account⟩, Rights.known ⟨.ofNat rights⟩⟩ := by
  have hword {column : Column} {values n : Nat} (h : n < values) :
      word column values n = .ok n := word_eq_ok.mpr ⟨rfl, h⟩
  unfold Row.record
  simp only [hword hchannel, hword haccount, hword hrights]
  rfl

/-- A row that can be read holds words. -/
theorem exists_words (h : row.record = .ok record) :
    ∃ channel account rights : Nat, row = ⟨channel, account, rights⟩ ∧
      channel < UInt32.size ∧ account < UInt32.size ∧ rights < UInt16.size := by
  obtain ⟨channel, account, rights⟩ := row
  obtain ⟨channel', hchannel, h⟩ := bind_eq_ok.mp h
  obtain ⟨account', haccount, h⟩ := bind_eq_ok.mp h
  obtain ⟨rights', hrights, -⟩ := bind_eq_ok.mp h
  obtain ⟨rfl, hchannel'⟩ := word_eq_ok.mp hchannel
  obtain ⟨rfl, haccount'⟩ := word_eq_ok.mp haccount
  obtain ⟨rfl, hrights'⟩ := word_eq_ok.mp hrights
  exact ⟨_, _, _, rfl, hchannel', haccount', hrights'⟩

/-- A record that is saved is read again, without the rights that have no name. -/
theorem record_of_ofRecord {saved : Record} (h : ofRecord saved = .ok row) :
    row.record = .ok saved.known := by
  obtain ⟨account, haccount, rfl⟩ := ofRecord_eq_ok.mp h
  rw [record_mk (UInt32.toNat_lt_size _) (UInt32.toNat_lt_size _) (UInt16.toNat_lt_size _),
    UInt32.ofNat_toNat, UInt32.ofNat_toNat, UInt16.ofNat_toNat, Record.known, haccount]

/-- A row can be read exactly if it is the row of a record.  The rights without a name are lost. -/
theorem record_eq_ok :
    row.record = .ok record ↔ ∃ saved, ofRecord saved = .ok row ∧ saved.known = record := by
  constructor
  · intro h
    obtain ⟨channel, account, rights, rfl, hchannel, haccount, hrights⟩ := exists_words h
    rw [record_mk hchannel haccount hrights] at h
    refine ⟨⟨⟨.ofNat channel⟩, .registered ⟨.ofNat account⟩, ⟨.ofNat rights⟩⟩,
      ofRecord_eq_ok.mpr ⟨_, rfl, ?_⟩, Except.ok.inj h⟩
    rw [UInt32.toNat_ofNat_of_lt' hchannel, UInt32.toNat_ofNat_of_lt' haccount,
      UInt16.toNat_ofNat_of_lt' hrights]
  · rintro ⟨saved, hsaved, rfl⟩
    exact record_of_ofRecord hsaved

/-- Only records of accounts are read. -/
theorem exists_account (h : row.record = .ok record) :
    ∃ account, record.identity = .registered account := by
  obtain ⟨saved, hsaved, rfl⟩ := record_eq_ok.mp h
  obtain ⟨account, haccount, -⟩ := ofRecord_eq_ok.mp hsaved
  exact ⟨account, haccount⟩

/-- A row is about the identity and the channel of the record that is read. -/
theorem isAbout_of_record (h : row.record = .ok record) (id : ChannelId) (account : AccountId) :
    row.isAbout id account = true ↔
      id = record.channel ∧ .registered account = record.identity := by
  obtain ⟨saved, hsaved, rfl⟩ := record_eq_ok.mp h
  exact isAbout_of_ofRecord hsaved id account

theorem channel_of_record (h : row.record = .ok record) (id : ChannelId) :
    row.channel = (id.value.toNat : Int) ↔ record.channel = id := by
  obtain ⟨saved, hsaved, rfl⟩ := record_eq_ok.mp h
  obtain ⟨account, -, rfl⟩ := ofRecord_eq_ok.mp hsaved
  rw [Int.ofNat_inj, UInt32.toNat_inj, ← ChannelId.mk.injEq]
  rfl

/-- Records are read in the order of their rows. -/
theorem precedes_of_before {record' : Record} (ha : a.record = .ok record)
    (hb : b.record = .ok record') (h : a.before b = true) : record.Precedes record' := by
  obtain ⟨saved, hsaved, rfl⟩ := record_eq_ok.mp ha
  obtain ⟨saved', hsaved', rfl⟩ := record_eq_ok.mp hb
  obtain ⟨account, haccount, rfl⟩ := ofRecord_eq_ok.mp hsaved
  obtain ⟨account', haccount', rfl⟩ := ofRecord_eq_ok.mp hsaved'
  refine ⟨account, account', haccount, haccount', ?_⟩
  rw [before_iff] at h
  rcases h with hless | ⟨hsame, hless⟩
  · exact .inl (UInt32.lt_iff_toNat_lt.mpr (Int.ofNat_lt.mp hless))
  · refine .inr ⟨?_, UInt32.lt_iff_toNat_lt.mpr (Int.ofNat_lt.mp hless)⟩
    have hvalue := UInt32.toNat_inj.mp (Int.ofNat_inj.mp hsame)
    rw [← ChannelId.mk.injEq] at hvalue
    exact hvalue

end Row

/-! ## Tables -/

namespace Table

variable {table : Table} {row : Row} {record : Record}

/-- The rows are in strict order, so no key is there twice. -/
def Ordered (table : Table) : Prop := table.Pairwise fun a b => a.before b = true

/-- What a table says of accounts, as far as its rows can be read. -/
def ledger (table : Table) : Ledger
  | id, .registered account =>
    (table.find? (·.isAbout id account)).bind fun row => row.record.toOption.map (·.rights)
  | _, .unregistered _ => none

/-! ### Writing -/

theorem mem_of_mem_put {a : Row} (h : a ∈ table.put row) : a = row ∨ a ∈ table := by
  induction table with
  | nil => exact .inl (List.mem_singleton.mp h)
  | cons present rest ih =>
      rw [put] at h
      split at h
      · exact (List.mem_cons.mp h).imp_right (List.mem_cons_of_mem present)
      split at h
      · exact List.mem_cons.mp h
      · rcases List.mem_cons.mp h with rfl | h
        · exact .inr List.mem_cons_self
        · exact (ih h).imp_right (List.mem_cons_of_mem present)

/-- Writing a row keeps the rows in order. -/
theorem Ordered.put (h : table.Ordered) (row : Row) : (table.put row).Ordered := by
  induction table with
  | nil => exact List.pairwise_singleton _ _
  | cons present rest ih =>
      obtain ⟨hpresent, hrest⟩ := List.pairwise_cons.mp h
      rw [Table.put]
      split
      · rename_i hkey
        exact .cons (fun a ha => Row.before_of_sameKey hkey (hpresent a ha)) hrest
      · rename_i hkey
        split
        · rename_i hbefore
          refine .cons (fun a ha => ?_) h
          rcases List.mem_cons.mp ha with rfl | ha
          · exact hbefore
          · exact Row.before_trans hbefore (hpresent a ha)
        · rename_i hbefore
          refine .cons (fun a ha => ?_) (ih hrest)
          rcases mem_of_mem_put ha with rfl | ha
          · exact Row.before_of_not_before hkey hbefore
          · exact hpresent a ha

/-- Only the key of the row that is written is looked up in another way. -/
theorem find?_put (table : Table) (row : Row) (id : ChannelId) (account : AccountId) :
    (table.put row).find? (·.isAbout id account) =
      if row.isAbout id account then some row else table.find? (·.isAbout id account) := by
  induction table with
  | nil =>
      rw [put, List.find?_cons]
      cases row.isAbout id account <;> rfl
  | cons present rest ih =>
      rw [put]
      split
      · rename_i hkey
        rw [List.find?_cons, List.find?_cons, ← Row.isAbout_congr hkey]
        cases row.isAbout id account <;> rfl
      split
      · rw [List.find?_cons]
        cases row.isAbout id account <;> rfl
      · rename_i hkey _
        rw [List.find?_cons, List.find?_cons, ih]
        cases hpresent : present.isAbout id account with
        | false => rfl
        | true =>
            have hrow : ¬ row.isAbout id account = true := by
              rw [Row.isAbout_iff] at hpresent ⊢
              rw [Row.sameKey_iff] at hkey
              omega
            exact (if_neg hrow).symm

/-- To write the row of a record is to set its entry. -/
theorem ledger_put (table : Table) (h : Row.ofRecord record = .ok row) :
    (table.put row).ledger =
      table.ledger.set record.channel record.identity record.rights.known := by
  funext id who
  cases who with
  | registered account =>
      rw [ledger, find?_put, Ledger.set]
      by_cases habout : id = record.channel ∧ .registered account = record.identity
      · rw [if_pos ((Row.isAbout_of_ofRecord h id account).mpr habout), if_pos habout,
          Option.bind_some, Row.record_of_ofRecord h]
        rfl
      · rw [if_neg fun hrow => habout ((Row.isAbout_of_ofRecord h id account).mp hrow),
          if_neg habout]
        rfl
  | unregistered player =>
      obtain ⟨account, haccount, -⟩ := Row.ofRecord_eq_ok.mp h
      rw [Ledger.set, haccount, if_neg (by rintro ⟨-, ⟨⟩⟩)]
      rfl

/-! ### What a worker writes -/

open Queue (write)

theorem write_of_ofRecord (table : Table) (h : Row.ofRecord record = .ok row) :
    write table record = table.put row := by
  rw [write, save, h]
  rfl

/-- A record of a session is not written. -/
theorem write_of_unregistered (table : Table) (h : record.identity.isRegistered = false) :
    write table record = table := by
  have hrefused (row : Row) : Row.ofRecord record ≠ .ok row := fun hrow => by
    rw [Row.isRegistered_of_ofRecord hrow] at h
    cases h
  rw [write, save]
  cases hrow : Row.ofRecord record with
  | ok row => exact absurd hrow (hrefused row)
  | error fault => rfl

theorem Ordered.write (h : table.Ordered) (record : Record) : (write table record).Ordered := by
  cases hregistered : record.identity.isRegistered with
  | false =>
      rw [write_of_unregistered table hregistered]
      exact h
  | true =>
      obtain ⟨row, hrow⟩ := Row.exists_ofRecord hregistered
      rw [write_of_ofRecord table hrow]
      exact h.put row

theorem Ordered.foldl_write (h : table.Ordered) (records : List Record) :
    (records.foldl Queue.write table).Ordered := by
  induction records generalizing table with
  | nil => exact h
  | cons record records ih => exact ih (h.write record)

/-- Of records that are written, one after the other, those of accounts are put into the table. -/
theorem foldl_write (table : Table) (records : List Record) :
    ∃ rows, (records.filter (·.identity.isRegistered)).mapM Row.ofRecord = .ok rows ∧
      records.foldl write table = rows.foldl (fun table row => table.put row) table := by
  induction records generalizing table with
  | nil => exact ⟨[], rfl, rfl⟩
  | cons record records ih =>
      cases hregistered : record.identity.isRegistered with
      | false =>
          obtain ⟨rows, hrows, htable⟩ := ih table
          rw [List.filter_cons_of_neg (by rw [hregistered]; exact Bool.false_ne_true),
            List.foldl_cons, write_of_unregistered table hregistered]
          exact ⟨rows, hrows, htable⟩
      | true =>
          obtain ⟨row, hrow⟩ := Row.exists_ofRecord hregistered
          obtain ⟨rows, hrows, htable⟩ := ih (table.put row)
          rw [List.filter_cons_of_pos (by exact hregistered), List.foldl_cons,
            write_of_ofRecord table hrow]
          refine ⟨row :: rows, ?_, htable⟩
          rw [List.mapM_cons, hrow, hrows]
          rfl

/-- What accounts have after a record has been written. -/
theorem ledger_write (table : Table) (record : Record) (id : ChannelId) (account : AccountId) :
    (write table record).ledger id (.registered account) =
      table.ledger.set record.channel record.identity record.rights.known id
        (.registered account) := by
  cases hregistered : record.identity.isRegistered with
  | false =>
      rw [write_of_unregistered table hregistered, Ledger.set, if_neg]
      rintro ⟨-, haccount⟩
      rw [← haccount] at hregistered
      cases hregistered
  | true =>
      obtain ⟨row, hrow⟩ := Row.exists_ofRecord hregistered
      rw [write_of_ofRecord table hrow, ledger_put table hrow]

/-- What accounts have after records have been written, one after the other. -/
theorem ledger_foldl_write (table : Table) (records : List Record) (id : ChannelId)
    (account : AccountId) :
    (records.foldl write table).ledger id (.registered account) =
      table.ledger.put (records.map Record.known) id (.registered account) := by
  induction records using List.reverseRecOn with
  | nil => rfl
  | append_singleton records record ih =>
      rw [List.foldl_concat, List.map_append, List.map_singleton, Ledger.put_concat, ledger_write,
        Ledger.set, Ledger.set, ih]
      rfl

/-! ### Reading -/

/-- Everything in a list can be read exactly if each of it can. -/
theorem mapM_eq_ok {ε α β : Type} {f : α → Except ε β} {xs : List α} {ys : List β} :
    xs.mapM f = .ok ys ↔ xs.map f = ys.map .ok := by
  induction xs generalizing ys with
  | nil =>
      rw [List.mapM_nil, List.map_nil, List.nil_eq, List.map_eq_nil_iff]
      exact ⟨fun h => (Except.ok.inj h).symm, fun h => congrArg Except.ok h.symm⟩
  | cons x xs ih =>
      rw [List.mapM_cons, List.map_cons]
      cases hx : f x with
      | error e =>
          refine iff_of_false (fun h => by cases h) fun h => ?_
          cases ys with
          | nil => cases h
          | cons y ys => cases (List.cons.inj h).1
      | ok y =>
          cases hxs : xs.mapM f with
          | error e =>
              refine iff_of_false (fun h => by cases h) fun h => ?_
              cases ys with
              | nil => cases h
              | cons y' ys =>
                  rw [ih.mpr (List.cons.inj h).2] at hxs
                  cases hxs
          | ok zs =>
              have hinjective := List.map_injective_iff.mpr fun (a b : β) =>
                @Except.ok.inj ε β a b
              rw [ih.mp hxs, ← List.map_cons, hinjective.eq_iff]
              exact ⟨fun h => Except.ok.inj h, fun h => congrArg Except.ok h⟩

/-- What is read from a table, row by row. -/
theorem all_eq_ok {records : List Record} :
    table.all = .ok records ↔ table.map Row.record = records.map .ok :=
  mapM_eq_ok

/-- A table can be read if each row can be. -/
theorem exists_all_of_rows (h : ∀ row ∈ table, ∃ record, row.record = .ok record) :
    ∃ records, table.all = .ok records := by
  induction table with
  | nil => exact ⟨[], rfl⟩
  | cons row rest ih =>
      obtain ⟨record, hrecord⟩ := h row List.mem_cons_self
      obtain ⟨records, hrecords⟩ := ih fun row hrow => h row (List.mem_cons_of_mem _ hrow)
      refine ⟨record :: records, all_eq_ok.mpr ?_⟩
      rw [List.map_cons, List.map_cons, hrecord, all_eq_ok.mp hrecords]

/-- In a table in order the only row of a key is found. -/
theorem Ordered.find?_of_mem (h : table.Ordered) (hrow : row ∈ table) {id : ChannelId}
    {account : AccountId} (habout : row.isAbout id account = true) :
    table.find? (·.isAbout id account) = some row := by
  induction table with
  | nil => cases hrow
  | cons present rest ih =>
      obtain ⟨hpresent, hrest⟩ := List.pairwise_cons.mp h
      rcases List.mem_cons.mp hrow with rfl | hrow
      · exact List.find?_cons_of_pos habout
      · have hother : ¬ present.isAbout id account = true := by
          intro hsame
          have hbefore := hpresent row hrow
          rw [Row.before_iff] at hbefore
          rw [Row.isAbout_iff] at habout hsame
          omega
        rw [List.find?_cons_of_neg hother]
        exact ih hrest hrow

section Reading

variable {records : List Record} (hall : table.all = .ok records)

include hall

/-- A record is read exactly if it is that of a row. -/
theorem mem_of_all : record ∈ records ↔ ∃ row ∈ table, row.record = .ok record := by
  rw [← List.mem_map_of_injective (f := (Except.ok : Record → Except StoreFault Record))
    fun _ _ => Except.ok.inj, ← all_eq_ok.mp hall, List.mem_map]

/-- Every row of a table that is read can be read. -/
theorem exists_record_of_all (hrow : row ∈ table) : ∃ record, row.record = .ok record := by
  have hread : row.record ∈ table.map Row.record := List.mem_map_of_mem hrow
  rw [all_eq_ok.mp hall] at hread
  obtain ⟨record, -, hrecord⟩ := List.mem_map.mp hread
  exact ⟨record, hrecord.symm⟩

/-- What is read has no rights without a name. -/
theorem map_known_all : records.map Record.known = records := by
  have hknown : ∀ record ∈ records, record.known = record := by
    intro record hrecord
    obtain ⟨row, -, hread⟩ := (mem_of_all hall).mp hrecord
    obtain ⟨saved, -, rfl⟩ := Row.record_eq_ok.mp hread
    rw [Record.known, Record.known, Rights.known_known]
  exact (List.map_congr_left hknown).trans (List.map_id _)

/-- After a record has been written, the table can still be read. -/
theorem exists_all_write (record : Record) : ∃ after, (write table record).all = .ok after := by
  cases hregistered : record.identity.isRegistered with
  | false =>
      rw [write_of_unregistered table hregistered]
      exact ⟨records, hall⟩
  | true =>
      obtain ⟨row, hrow⟩ := Row.exists_ofRecord hregistered
      rw [write_of_ofRecord table hrow]
      refine exists_all_of_rows fun a ha => ?_
      rcases mem_of_mem_put ha with rfl | ha
      · exact ⟨_, Row.record_of_ofRecord hrow⟩
      · exact exists_record_of_all hall ha

/-- The records that are read from a table are its ledger. -/
theorem Ordered.mem_iff_ledger (h : table.Ordered) :
    record ∈ records ↔
      table.ledger record.channel record.identity = some record.rights := by
  rw [mem_of_all hall]
  obtain ⟨channel, identity, rights⟩ := record
  constructor
  · rintro ⟨row, hrow, hrecord⟩
    obtain ⟨account, rfl⟩ := Row.exists_account hrecord
    have habout := (Row.isAbout_of_record hrecord channel account).mpr ⟨rfl, rfl⟩
    rw [ledger, h.find?_of_mem hrow habout, Option.bind_some, hrecord]
    rfl
  · intro hledger
    cases identity with
    | registered account =>
        rw [ledger] at hledger
        obtain ⟨row, hfound, hrights⟩ := Option.bind_eq_some_iff.mp hledger
        have hrow := List.mem_of_find?_eq_some hfound
        have habout : row.isAbout channel account = true := by simpa using List.find?_some hfound
        obtain ⟨⟨channel', identity', rights'⟩, hread⟩ := exists_record_of_all hall hrow
        obtain ⟨rfl, rfl⟩ := (Row.isAbout_of_record hread channel account).mp habout
        rw [hread] at hrights
        cases hrights
        exact ⟨row, hrow, hread⟩
    | unregistered player => cases hledger

/-- Records are read in strict order. -/
theorem Ordered.pairwise_all (h : table.Ordered) : records.Pairwise Record.Precedes := by
  have hrows : (table.map Row.record).Pairwise fun a b => ∀ record record',
      a = .ok record → b = .ok record' → record.Precedes record' :=
    List.pairwise_map.mpr (h.imp fun hbefore _ _ ha hb => Row.precedes_of_before ha hb hbefore)
  rw [all_eq_ok.mp hall, List.pairwise_map] at hrows
  exact hrows.imp fun hrecords => hrecords _ _ rfl rfl

/-- The records that are read, written to the empty ledger, are the ledger of the table. -/
theorem Ordered.put_all (h : table.Ordered) :
    Ledger.put records (fun _ _ => none) = table.ledger := by
  funext id who
  ext rights
  constructor
  · intro hput
    obtain ⟨earlier, later, hrecords, -⟩ := Ledger.exists_last_of_put hput
    have hmem : ⟨id, who, rights⟩ ∈ records := hrecords ▸ by simp
    exact (h.mem_iff_ledger hall).mp hmem
  · intro hledger
    have hmem : ⟨id, who, rights⟩ ∈ records := (h.mem_iff_ledger hall).mpr hledger
    obtain ⟨earlier, later, hrecords⟩ := List.append_of_mem hmem
    have horder := h.pairwise_all hall
    rw [hrecords, List.pairwise_append, List.pairwise_cons] at horder
    rw [hrecords]
    exact Ledger.put_of_last _ _ fun other hother =>
      (horder.2.1.1 other hother).ne_key

/-- The records of a channel are those of all records that name it. -/
theorem ofChannel_of_all (id : ChannelId) :
    table.ofChannel id = .ok (records.filter (·.channel = id)) := by
  let names (read : Except StoreFault Record) : Bool := read.toOption.any (·.channel = id)
  have hrows : table.filter (·.channel = (id.value.toNat : Int)) =
      table.filter (names ∘ Row.record) := by
    refine List.filter_congr fun row hrow => ?_
    obtain ⟨record, hrecord⟩ := exists_record_of_all hall hrow
    rw [Function.comp_apply, hrecord]
    exact decide_eq_decide.mpr (Row.channel_of_record hrecord id)
  rw [ofChannel, hrows, mapM_eq_ok, ← List.filter_map, all_eq_ok.mp hall, List.filter_map]
  rfl

/-- After records have been written, the table can still be read. -/
theorem exists_all_foldl_write (written : List Record) :
    ∃ after, (written.foldl Queue.write table).all = .ok after := by
  induction written using List.reverseRecOn with
  | nil => exact ⟨records, hall⟩
  | append_singleton written record ih =>
      obtain ⟨after, hafter⟩ := ih
      rw [List.foldl_concat]
      exact exists_all_write hafter record

/-- What is read after records have been written: of each key the last record of those that were
there and those that were written. -/
theorem Ordered.mem_all_foldl_write (h : table.Ordered) {written after : List Record}
    (hafter : (written.foldl Queue.write table).all = .ok after) :
    record ∈ after ↔ ∃ earlier last later, records ++ written = earlier ++ last :: later ∧
      last.identity.isRegistered = true ∧ record = last.known ∧
      ∀ other ∈ later, ¬ (other.channel = last.channel ∧ other.identity = last.identity) := by
  have hwritten (id : ChannelId) (account : AccountId) :
      (written.foldl Queue.write table).ledger id (.registered account) =
        Ledger.put ((records ++ written).map Record.known) (fun _ _ => none) id
          (.registered account) := by
    rw [ledger_foldl_write, ← h.put_all hall, List.map_append, map_known_all hall,
      Ledger.put_append]
  rw [(h.foldl_write written).mem_iff_ledger hafter]
  obtain ⟨channel, identity, rights⟩ := record
  constructor
  · intro hledger
    cases identity with
    | unregistered player => cases hledger
    | registered account =>
        rw [hwritten] at hledger
        obtain ⟨earlier', later', hrecords, hlater⟩ := Ledger.exists_last_of_put hledger
        obtain ⟨earlier, rest, hsplit, -, hrest⟩ := List.map_eq_append_iff.mp hrecords
        obtain ⟨last, later, rfl, hlast, rfl⟩ := List.map_eq_cons_iff.mp hrest
        obtain ⟨channel', identity', rights'⟩ := last
        cases hlast
        exact ⟨earlier, _, later, hsplit, rfl, rfl, fun other hother =>
          hlater other.known (List.mem_map_of_mem hother)⟩
  · rintro ⟨earlier, ⟨channel', identity', rights'⟩, later, hsplit, hregistered, hlast, hlater⟩
    cases hlast
    obtain ⟨account, rfl⟩ := Identity.isRegistered_iff.mp hregistered
    rw [hwritten, hsplit, List.map_append, List.map_cons]
    refine Ledger.put_of_last _ _ fun other hother => ?_
    obtain ⟨other', hother', rfl⟩ := List.mem_map.mp hother
    exact hlater other' hother'

end Reading

end Table

end ChannelServer
