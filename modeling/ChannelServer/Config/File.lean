import ChannelServer.Config.Check
import ChannelServer.Config.Reader
import ChannelServer.Toml.Document

/-!
# Configuration files

A configuration file is a TOML document. Where there is no file the settings keep their own values.
-/

namespace ChannelServer.Config

/-- Why a configuration file gives no settings. -/
inductive FileFault where
  /-- The file cannot be read, or is no text. -/
  | unreadable
  /-- The text is no document, or a setting in it is of the wrong kind. -/
  | malformed
  | refused (cause : SettingsFault)
deriving DecidableEq, Repr

/-- What a fault says about the file at a path. -/
def FileFault.message (path : String) : FileFault → String
  | unreadable => s!"Konfigurationsdatei '{path}' nicht lesbar"
  | malformed => s!"Konfigurationsfehler in '{path}'"
  | refused cause => cause.message

/-- The settings in the text of a file. -/
def Settings.ofToml? (text : String) : Option Settings := do
  Settings.ofTree? .ignored (← Toml.document? text)

/-- The settings in a file, which may be absent. They are checked. -/
def Settings.load (file : Option (List UInt8)) : Except FileFault Settings := do
  let settings ← match file with
    | none => pure {}
    | some bytes =>
      match Text.decode bytes with
      | .error _ => throw .unreadable
      | .ok text =>
        match Settings.ofToml? text with
        | some settings => pure settings
        | none => throw .malformed
  match settings.check with
  | .ok () => return settings
  | .error fault => throw (.refused fault)

end ChannelServer.Config
