import ChannelServer.Config.Settings
import ChannelServer.Config.Tree
import ChannelServer.Privilege

/-!
# Reading settings

Settings are looked up in a data tree. What the tree does not name keeps its own value, what it
names has to be of the right kind and within range, and what no setting is called is passed over.

A record may also be written as the list of its fields in order. A list that ends early leaves the
later fields as they are; whether it may be too long is a matter of the written format.
-/

namespace ChannelServer.Config

/-! ## Single values
-/

namespace Tree

/-- A text. -/
def asText? : Tree → Option String
  | .text value => some value
  | _ => none

/-- A truth value. -/
def asTruth? : Tree → Option Bool
  | .truth value => some value
  | _ => none

/-- A number from zero to a maximum. -/
def asNumber? (max : Nat) : Tree → Option Nat
  | .integer value => if 0 ≤ value ∧ value ≤ max then some value.toNat else none
  | _ => none

/-- A word of 16 bits. -/
def asWord16? (tree : Tree) : Option UInt16 :=
  (tree.asNumber? 65535).map UInt16.ofNat

/-- A word of 32 bits. -/
def asWord32? (tree : Tree) : Option UInt32 :=
  (tree.asNumber? 4294967295).map UInt32.ofNat

/-- A number of 64 bits. -/
def asCount? (tree : Tree) : Option Nat :=
  tree.asNumber? 18446744073709551615

/-- A value that may be absent. -/
def asOptional? {α : Type} (read : Tree → Option α) : Tree → Option (Option α)
  | .null => some none
  | tree => (read tree).map some

/-- A list whose items are all of one kind. -/
def asList? {α : Type} (read : Tree → Option α) : Tree → Option (List α)
  | .list items => items.mapM read
  | _ => none

end Tree

/-! ## Records -/

/-- Whether a list of fields may be longer than the record. -/
inductive Surplus where
  | refused
  | ignored
deriving DecidableEq, Repr

/-- A record as it is written. -/
inductive Fields where
  | named (fields : List (String × Tree))
  | inOrder (items : List Tree)

namespace Fields

/-- The fields of a tree that stands for a record of `count` fields. -/
def ofTree? (surplus : Surplus) (count : Nat) : Tree → Option Fields
  | .record fields => some (.named fields)
  | .moment => some (.named [])
  | .list items =>
    if surplus = .refused ∧ count < items.length then none else some (.inOrder items)
  | _ => none

/-- The tree of a field, by its name or by its position. -/
def get? (name : String) (position : Nat) : Fields → Option Tree
  | named fields => fields.lookup name
  | inOrder items => items[position]?

/-- Reads a field. A field that is not written keeps the given value. -/
def read? {α : Type} (fields : Fields) (name : String) (position : Nat) (read : Tree → Option α)
    (otherwise : α) : Option α :=
  match fields.get? name position with
  | some tree => read tree
  | none => some otherwise

end Fields

/-! ## Settings -/

/-- Reads the settings of the server. -/
def ServerSettings.ofTree? (surplus : Surplus) (tree : Tree) : Option ServerSettings := do
  let fields ← Fields.ofTree? surplus 4 tree
  let preset : ServerSettings := {}
  return {
    name := ← fields.read? "name" 0 Tree.asText? preset.name
    limits :=
      { channels := ← fields.read? "max_kanaele" 1 Tree.asCount? preset.limits.channels
        players := ← fields.read? "max_spieler" 2 Tree.asCount? preset.limits.players
        bans := ← fields.read? "max_bans" 3 Tree.asCount? preset.limits.bans } }

/-- Reads the settings of the database. -/
def DatabaseSettings.ofTree? (surplus : Surplus) (tree : Tree) : Option DatabaseSettings := do
  let fields ← Fields.ofTree? surplus 3 tree
  let preset : DatabaseSettings := {}
  return {
    url := ← fields.read? "url" 0 Tree.asText? preset.url
    maxConnections := ← fields.read? "max_verbindungen" 1 Tree.asWord32? preset.maxConnections
    writeAhead := ← fields.read? "sqlite_wal" 2 Tree.asTruth? preset.writeAhead }

/-- Reads the settings of the log. -/
def LogSettings.ofTree? (surplus : Surplus) (tree : Tree) : Option LogSettings := do
  let fields ← Fields.ofTree? surplus 2 tree
  let preset : LogSettings := {}
  return {
    level := ← fields.read? "level" 0 Tree.asText? preset.level
    format := ← fields.read? "format" 1 Tree.asText? preset.format }

/-- Reads the settings of a channel. -/
def ChannelSettings.ofTree? (surplus : Surplus) (tree : Tree) : Option ChannelSettings := do
  let fields ← Fields.ofTree? surplus 9 tree
  let preset : ChannelSettings := {}
  return {
    name := ← fields.read? "name" 0 Tree.asText? preset.name
    topic := ← fields.read? "topic" 1 Tree.asText? preset.topic
    description := ← fields.read? "beschreibung" 2 Tree.asText? preset.description
    flags := ← fields.read? "flags" 3 (Tree.asList? Tree.asText?) preset.flags
    codec := ← fields.read? "codec" 4 Tree.asWord16? preset.codec
    sortOrder := ← fields.read? "sort_order" 5 Tree.asWord16? preset.sortOrder
    maxUsers := ← fields.read? "max_users" 6 (Tree.asOptional? Tree.asWord16?) preset.maxUsers
    password := ← fields.read? "passwort" 7 (Tree.asOptional? Tree.asText?) preset.password
    parent := ← fields.read? "eltern" 8 (Tree.asOptional? Tree.asText?) preset.parent }

/-- Reads all settings. -/
def Settings.ofTree? (surplus : Surplus) (tree : Tree) : Option Settings := do
  let fields ← Fields.ofTree? surplus 4 tree
  let preset : Settings := {}
  return {
    server := ← fields.read? "server" 0 (ServerSettings.ofTree? surplus) preset.server
    database := ← fields.read? "datenbank" 1 (DatabaseSettings.ofTree? surplus) preset.database
    log := ← fields.read? "logging" 2 (LogSettings.ofTree? surplus) preset.log
    channels := ← fields.read? "kanaele" 3
      (Tree.asList? (ChannelSettings.ofTree? surplus)) preset.channels }

/-- Reads an identity, which is written as the one field of a record. -/
def identityOfTree? : Tree → Option Identity
  | .record [("Registriert", account)] => (account.asWord32?).map (.registered ⟨·⟩)
  | .record [("Unregistriert", player)] => (player.asWord32?).map (.unregistered ⟨·⟩)
  | _ => none

end ChannelServer.Config
