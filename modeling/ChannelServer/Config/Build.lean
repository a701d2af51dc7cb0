import ChannelServer.Config.Check
import ChannelServer.Registry.Channels

/-!
# Setting up the registry

The channels of the settings go into an empty registry in order, each with its password and below
its parent. The settings are checked first, so that what is refused here is a matter of room, of
passwords or of a missing default channel.
-/

namespace ChannelServer.Config

/-- A registry under construction: the registry and the ids of the channels by name. -/
structure Site where
  registry : Registry
  ids : List (String × ChannelId) := []

/-- Carries out an action on the registry; a fault becomes one of the settings. -/
def Site.perform {α : Type} (site : Site) (action : Registry.Action α)
    (context : Fault → SettingsFault) : Except SettingsFault (α × Site) :=
  match action site.registry with
  | .ok answer registry => .ok (answer, { site with registry })
  | .error fault _ => .error (context fault)

/-- Adds a channel to a registry under construction. -/
def Site.add (site : Site) (channel : ChannelSettings) : Except SettingsFault Site := do
  let info ← channel.metadata
  let (id, site) ← site.perform (Registry.addChannel info) (.notAdded channel.name)
  let site ← match channel.password with
    | some password => do
      let (_, site) ← site.perform (Registry.setPassword id (Text.bytes password))
        (.badPassword channel.name)
      pure site
    | none => pure site
  let site ← match channel.parent with
    | some parent =>
      match site.ids.lookup parent with
      | some parentId => do
        let (_, site) ← site.perform (Registry.attach parentId id)
          (.notAttached channel.name parent)
        pure site
      | none => throw (.parentUnknown parent)
    | none => pure site
  return { site with ids := (channel.name, id) :: site.ids }

/-- Sets up the registry that settings describe. -/
def Settings.build (settings : Settings) : Except SettingsFault Registry := do
  settings.check
  let site ← settings.channels.foldlM Site.add { registry := .empty settings.server.limits }
  match site.registry.defaultChannel with
  | .ok _ => return site.registry
  | .error fault => throw (.noDefault fault)

end ChannelServer.Config
