import ChannelServer.Fault
import ChannelServer.Privilege

/-!
# The table of privileges

Stored privileges are the rows of a table with the key (channel, account). A row is put in place of
the one with its key, if there is one, and rows are read in the order of their keys.

The columns hold integers of 64 bits, and others may have written to them. So reading a row can
fail, while everything that is saved by this library can be read again. Rights without a name are
dropped on reading.
-/

namespace ChannelServer

/-- A row of the table. -/
structure Row where
  channel : Int
  account : Int
  rights : Int
deriving DecidableEq, Repr

namespace Row

/-- The rows have the same key. -/
def sameKey (a b : Row) : Bool := a.channel = b.channel && a.account = b.account

/-- The key of a row comes before that of another. -/
def before (a b : Row) : Bool :=
  a.channel < b.channel || (a.channel = b.channel && a.account < b.account)

/-- The row of a record. Records of a session have none. -/
def ofRecord (record : Record) : Except StoreFault Row :=
  match record.identity with
  | .registered account =>
    .ok { channel := record.channel.value.toNat
          account := account.value.toNat
          rights := record.rights.bits.toNat }
  | .unregistered _ => .error (.sessionRecord record.channel)

/-- A number from a column, if it is a word of so many values. -/
def word (column : Column) (values : Nat) (value : Int) : Except StoreFault Nat :=
  if 0 ≤ value ∧ value < values then .ok value.toNat else .error (.badRow column value)

/-- The record of a row. The columns are looked at in order. -/
def record (row : Row) : Except StoreFault Record := do
  let channel ← word .channel UInt32.size row.channel
  let account ← word .account UInt32.size row.account
  let rights ← word .rights UInt16.size row.rights
  return {
    channel := ⟨UInt32.ofNat channel⟩
    identity := .registered ⟨UInt32.ofNat account⟩
    rights := Rights.known ⟨UInt16.ofNat rights⟩ }

end Row

/-- The rows in the order of their keys. -/
abbrev Table := List Row

namespace Table

/-- Puts a row into the table, in place of the one with its key. -/
def put (row : Row) : Table → Table
  | [] => [row]
  | present :: rest =>
    if row.sameKey present then row :: rest
    else if row.before present then row :: present :: rest
    else present :: put row rest

/-- Saves a record. -/
def save (record : Record) (table : Table) : Except StoreFault Table :=
  (Row.ofRecord record).map (put · table)

/-- Reads all records. The first row that cannot be read decides. -/
def all (table : Table) : Except StoreFault (List Record) :=
  table.mapM Row.record

/-- Reads the records of a channel. -/
def ofChannel (id : ChannelId) (table : Table) : Except StoreFault (List Record) :=
  (table.filter (·.channel = (id.value.toNat : Int))).mapM Row.record

end Table

end ChannelServer
