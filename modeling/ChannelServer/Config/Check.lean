import ChannelServer.Config.Settings

/-!
# Checking settings

Settings can be of the right kind and still describe no server. The check goes through the channels
in order and knows, of the channels before, their flags and whether they have a parent. It is meant
to find everything that setting up the channels could stumble over, except what depends on room and
on passwords.
-/

namespace ChannelServer.Config

/-- Why settings describe no server. -/
inductive SettingsFault where
  | unknownLevel (level : String)
  | unknownFormat (format : String)
  | unknownFlag (channel flag : String)
  /-- The metadata of a channel is refused. -/
  | badChannel (channel : String) (cause : Fault)
  | twice (channel : String)
  | secondDefault (first second : String)
  /-- The password flag without a password. -/
  | passwordMissing (channel : String)
  | defaultBelowParent (channel : String)
  | passwordBelowParent (channel : String)
  /-- The parent is not among the channels before. -/
  | parentMissing (parent channel : String)
  | parentBelowParent (parent : String)
  | parentWithoutSubchannels (parent : String)
  /-- A channel is refused by the registry. -/
  | notAdded (channel : String) (cause : Fault)
  | badPassword (channel : String) (cause : Fault)
  /-- The registry has not seen the parent. -/
  | parentUnknown (parent : String)
  | notAttached (channel parent : String) (cause : Fault)
  | noDefault (cause : Fault)
deriving DecidableEq, Repr

namespace SettingsFault

/-- The fault that the registry or the metadata gave as the cause. -/
def cause? : SettingsFault → Option Fault
  | badChannel _ cause | notAdded _ cause | badPassword _ cause | notAttached _ _ cause
  | noDefault cause => some cause
  | _ => none

/-- What went wrong, without the cause. -/
def context : SettingsFault → String
  | unknownLevel level => s!"Ungueltiger Log-Level '{level}'"
  | unknownFormat format => s!"Ungueltiges Log-Format '{format}'"
  | unknownFlag channel flag => s!"Kanal '{channel}': unbekanntes Flag '{flag}'"
  | badChannel channel _ => s!"Kanal '{channel}' ist ungueltig"
  | twice channel => s!"Kanal '{channel}' ist doppelt konfiguriert"
  | secondDefault first second =>
    s!"Mehrere Standardkanaele konfiguriert: '{first}' und '{second}'"
  | passwordMissing channel => s!"Kanal '{channel}' hat das Flag 'password' aber kein Passwort"
  | defaultBelowParent channel => s!"Standardkanal '{channel}' kann kein Unterkanal sein"
  | passwordBelowParent channel => s!"Unterkanal '{channel}' erbt das Passwort seines Elternkanals"
  | parentMissing parent channel =>
    s!"Elternkanal '{parent}' von '{channel}' muss vorher konfiguriert sein"
  | parentBelowParent parent => s!"Elternkanal '{parent}' ist selbst ein Unterkanal"
  | parentWithoutSubchannels parent => s!"Elternkanal '{parent}' erlaubt keine Unterkanaele"
  | notAdded channel _ => s!"Kanal '{channel}' konnte nicht angelegt werden"
  | badPassword channel _ => s!"Passwort fuer '{channel}' ungueltig"
  | parentUnknown parent => s!"Elternkanal '{parent}' unbekannt"
  | notAttached channel parent _ => s!"Kanal '{channel}' nicht unter '{parent}' einhaengbar"
  | noDefault _ => "Konfiguration enthaelt keinen Standardkanal"

/-- The message of a fault ends with that of its cause. -/
def message (fault : SettingsFault) : String :=
  match fault.cause? with
  | some cause => s!"{fault.context}: {cause.message}"
  | none => fault.context

end SettingsFault

/-! ## The metadata of a configured channel -/

namespace ChannelSettings

/-- The flags that are named, or the first name that is not of a flag. -/
def flagSet (channel : ChannelSettings) : Except SettingsFault Flags :=
  channel.flags.foldlM (fun flags name =>
    match Flags.ofName? name with
    | some flag => .ok (flags.union flag)
    | none => .error (.unknownFlag channel.name name)) .none

/-- The metadata of a channel, not yet checked. -/
def metadataWith (channel : ChannelSettings) (flags : Flags) : Metadata where
  name := channel.name
  topic := channel.topic
  description := channel.description
  flags := flags
  codec := .ofNumber channel.codec
  sortOrder := channel.sortOrder
  capacity := channel.maxUsers.elim .unbounded .limited

/-- The metadata of a channel. -/
def metadata (channel : ChannelSettings) : Except SettingsFault Metadata := do
  let info := channel.metadataWith (← channel.flagSet)
  match info.check with
  | .ok () => return info
  | .error fault => throw (.badChannel channel.name fault)

end ChannelSettings

/-! ## The check -/

/-- What is known of the channels before. -/
structure Known where
  name : String
  flags : Flags
  isTop : Bool

/-- Checks what a channel says about its parent. -/
def checkParent (known : List Known) (channel : ChannelSettings) (flags : Flags)
    (parent : String) : Except SettingsFault Unit := do
  if flags.has .default then throw (.defaultBelowParent channel.name)
  if channel.password.isSome then throw (.passwordBelowParent channel.name)
  match known.find? (·.name = parent) with
  | none => throw (.parentMissing parent channel.name)
  | some found =>
    if !found.isTop then throw (.parentBelowParent parent)
    else if !found.flags.has .subchannels then throw (.parentWithoutSubchannels parent)

/-- Checks a channel against the channels before and answers what is to be known of it. -/
def checkChannel (known : List Known) (channel : ChannelSettings) :
    Except SettingsFault Known := do
  let flags := (← channel.metadata).flags
  if known.any (·.name = channel.name) then throw (.twice channel.name)
  match known.find? (·.flags.has .default) with
  | some first =>
    if flags.has .default then throw (.secondDefault first.name channel.name)
  | none => pure ()
  if flags.has .password && channel.password.isNone then throw (.passwordMissing channel.name)
  match channel.parent with
  | some parent => checkParent known channel flags parent
  | none => pure ()
  return ⟨channel.name, flags, channel.parent.isNone⟩

/-- Checks channels that come after others. -/
def checkChannels (known : List Known) : List ChannelSettings → Except SettingsFault Unit
  | [] => .ok ()
  | channel :: channels => do checkChannels (known ++ [← checkChannel known channel]) channels

/-- Checks all settings: the log first, then the channels in order. -/
def Settings.check (settings : Settings) : Except SettingsFault Unit := do
  if !isLogLevel settings.log.level then throw (.unknownLevel settings.log.level)
  if !isLogFormat settings.log.format then throw (.unknownFormat settings.log.format)
  checkChannels [] settings.channels

end ChannelServer.Config
