import ChannelServer.Ident
import ChannelServer.Text.Utf8

/-!
# Faults

Everything an operation of the library can refuse, as causes. A fault first falls into one of eight
kinds, which is what callers decide by; inside a kind the cause carries what its message needs. The
wording is in the `message` functions of this module and nowhere else.

Each kind of cause has a constructor `stated` for a reason that a caller brings along in its own
words.
-/

namespace ChannelServer

/-- The three texts of a channel. -/
inductive Field where
  | name
  | topic
  | description
deriving DecidableEq, Repr

/-- The label of a text in messages. -/
def Field.label : Field → String
  | name => "name"
  | topic => "topic"
  | description => "beschreibung"

/-- A frame that is longer than its reader or writer allows. -/
structure OversizeFrame where
  length : Nat
  limit : Nat
deriving DecidableEq, Repr

def OversizeFrame.message (fault : OversizeFrame) : String :=
  s!"Frame zu gross: {fault.length} Bytes (Maximum: {fault.limit} Bytes)"

/-- Why an argument is refused. -/
inductive BadArgument where
  /-- A text with a NUL byte could not be written as a terminated string. -/
  | nulInField (field : Field)
  /-- Only the default channel may be unbounded. -/
  | unboundedCapacity
  | passwordTooLong (length max : Nat)
  | nulInPassword
  | reservedId (id : ChannelId)
  | idTaken (id : ChannelId)
  /-- `id` is the default channel already. -/
  | defaultExists (id : ChannelId)
  /-- A subchannel was to become the default channel. -/
  | defaultBelowParent (id : ChannelId)
  /-- The default channel was to become a subchannel. -/
  | attachDefault (id : ChannelId)
  | attachToItself (id : ChannelId)
  /-- A channel with subchannels was to become a subchannel. -/
  | attachParent (id : ChannelId)
  | notAttached (child parent : ChannelId)
  /-- The channel does not fit into a frame. -/
  | notFramable (id : ChannelId) (cause : OversizeFrame)
  /-- The parent of an imported channel was thrown out again. -/
  | parentDiscarded (parent : ChannelId)
  | stated (reason : String)
deriving DecidableEq, Repr

def BadArgument.message : BadArgument → String
  | nulInField field => s!"Feld '{field.label}' enthaelt ein Null-Byte"
  | unboundedCapacity => "Unbegrenzte Kapazitaet ist nur fuer den Standardkanal zulaessig"
  | passwordTooLong length max => s!"Passwort zu lang: {length} Bytes (maximal {max})"
  | nulInPassword => "Passwort enthaelt ein Null-Byte"
  | reservedId id => s!"Kanal-ID {id} ist reserviert"
  | idTaken id => s!"Kanal-ID {id} ist bereits vergeben"
  | defaultExists id => s!"Standardkanal existiert bereits: {id}"
  | defaultBelowParent id => s!"Unterkanal {id} kann kein Standardkanal sein"
  | attachDefault id => s!"Standardkanal {id} kann kein Unterkanal werden"
  | attachToItself id => s!"Kanal {id} kann nicht sein eigener Unterkanal sein"
  | attachParent id => s!"Kanal {id} hat selbst Unterkanaele"
  | notAttached child parent => s!"Kanal {child} ist kein Unterkanal von {parent}"
  | notFramable id cause => s!"Kanal {id}: {cause.message}"
  | parentDiscarded parent => s!"Elternkanal {parent} wurde verworfen"
  | stated reason => reason

/-- What a channel does not support. -/
inductive Unsupported where
  | subchannels (parent : ChannelId)
  /-- A subchannel has no password of its own. -/
  | ownPassword (id : ChannelId)
  | stated (reason : String)
deriving DecidableEq, Repr

def Unsupported.message : Unsupported → String
  | subchannels parent => s!"Kanal {parent} kann keine Unterkanaele haben"
  | ownPassword id => s!"Unterkanal {id} erbt das Passwort seines Elternkanals"
  | stated reason => reason

/-- What was looked for and is not there. -/
inductive Missing where
  | channel (id : ChannelId)
  | player (id : PlayerId)
  | defaultChannel
  | stated (what : String)
deriving DecidableEq, Repr

def Missing.message : Missing → String
  | channel id => s!"Kanal {id}"
  | player id => s!"Spieler {id}"
  | defaultChannel => "Standardkanal"
  | stated what => what

/-- Why bytes are not the written form of a channel or of a stream of channels. -/
inductive BadInput where
  | channelTooShort (length minimum : Nat)
  /-- A text does not end within the `room` bytes left for it. -/
  | unterminated (field : Field) (room : Nat)
  | notUtf8 (field : Field) (cause : Text.Utf8Fault)
  /-- Bytes are left in the frame of a channel. -/
  | trailing (count : Nat) (id : ChannelId)
  | oversize (cause : OversizeFrame)
  /-- The stream ends inside a frame. -/
  | truncated (count : Nat)
  | stated (reason : String)
deriving DecidableEq, Repr

def BadInput.message : BadInput → String
  | channelTooShort length minimum => s!"Kanal zu kurz: {length} Bytes (mindestens {minimum})"
  | unterminated field room => s!"Feld '{field.label}' endet nicht innerhalb von {room} Bytes"
  | notUtf8 field cause => s!"Feld '{field.label}' ist kein UTF-8: {cause.message}"
  | trailing count id => s!"{count} ueberzaehlige Bytes nach Kanal {id}"
  | oversize cause => cause.message
  | truncated count => s!"Strom endet mit {count} Bytes eines unvollstaendigen Frames"
  | stated reason => reason

/-- A column of the table of privileges. -/
inductive Column where
  | channel
  | account
  | rights
deriving DecidableEq, Repr

def Column.label : Column → String
  | channel => "kanal_id"
  | account => "konto_id"
  | rights => "Privilegien"

/-- Why the database of privileges refuses. -/
inductive StoreFault where
  /-- The record of a session cannot be stored. -/
  | sessionRecord (channel : ChannelId)
  /-- A database was to be opened with no connection at all. -/
  | noConnections
  | badData (reason : String)
  /-- A row holds a number outside of the range of its column. -/
  | badRow (column : Column) (value : Int)
  | internal (reason : String)
  /-- The database cannot be opened, or it was closed. -/
  | unavailable
  /-- The database is there but cannot be changed, so that it gets no table. -/
  | notSetUp
deriving DecidableEq, Repr

def StoreFault.message : StoreFault → String
  | sessionRecord channel =>
    s!"Ungueltige Daten: Sitzungs-Privileg fuer {channel} kann nicht gespeichert werden"
  | noConnections => "Ungueltige Daten: max_verbindungen muss groesser als 0 sein"
  | badData reason => s!"Ungueltige Daten: {reason}"
  | badRow column value => s!"Interner DB-Fehler: Ungueltige {column.label} {value}"
  | internal reason => s!"Interner DB-Fehler: {reason}"
  | unavailable => "Datenbank nicht erreichbar"
  | notSetUp => "Datenbank nicht beschreibbar"

/-- Why a record did not reach the store. -/
inductive NotStored where
  /-- Nobody takes records from the queue any more. -/
  | workerStopped
  | store (cause : StoreFault)
  | stated (reason : String)
deriving DecidableEq, Repr

def NotStored.message : NotStored → String
  | workerStopped => "Persistenz-Worker beendet"
  | store cause => cause.message
  | stated reason => reason

/-- Why an operation is refused. -/
inductive Fault where
  /-- The channel has as many members as it takes. -/
  | channelFull (channel : ChannelId) (limit : UInt16)
  /-- All slots of a kind of entity are in use. -/
  | slotsFull (capacity : Nat)
  | badArgument (cause : BadArgument)
  | unsupported (cause : Unsupported)
  | missing (what : Missing)
  /-- The channel has no password that could be asked for. -/
  | unprotected (channel : ChannelId)
  | badInput (cause : BadInput)
  | notStored (cause : NotStored)
deriving DecidableEq, Repr

namespace Fault

/-- The message of a fault. -/
def message : Fault → String
  | channelFull channel limit => s!"Kanal {channel} ist voll (maximal {limit} Benutzer)"
  | slotsFull capacity => s!"Ablage voll: maximal {capacity} Eintraege"
  | badArgument cause => s!"Ungueltiges Argument: {cause.message}"
  | unsupported cause => s!"Operation nicht unterstuetzt: {cause.message}"
  | missing what => s!"Nicht gefunden: {what.message}"
  | unprotected channel => s!"Kanal {channel} ist nicht passwortgeschuetzt"
  | badInput cause => s!"Fehlerhafte Eingabe: {cause.message}"
  | notStored cause => s!"Persistenzfehler: {cause.message}"

/-- The fault is about room that is used up, and may be gone when the same is tried later. -/
def isCapacity : Fault → Bool
  | channelFull .. | slotsFull .. => true
  | _ => false

end Fault

end ChannelServer
