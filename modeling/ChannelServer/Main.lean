import ChannelServer.Server

/-!
# The command

Reads the configuration file, starts the server with it and shows the channel tree. The path of the
file is taken from the environment.
-/

namespace ChannelServer

/-- The line of a channel in the tree, set in by its depth. -/
def TreeLine.render (line : TreeLine) : String :=
  let margin := String.ofList (List.replicate (2 * line.depth) ' ')
  let mark := if line.isDefault then " [Standard]" else ""
  s!"{margin}{line.id} {line.name}{mark}: {line.topic} ({line.members} Spieler)"

/-- What the command prints for a configuration file, or why it fails. The command stores nothing,
so its database is in memory whatever the file names. -/
def report (path : String) (file : Option (List UInt8)) : Except String (List String) := do
  let settings ← (Config.Settings.load file).mapError (·.message path)
  let settings := { settings with database := { settings.database with url := DatabaseUrl.memory } }
  let server ← (Server.prepare {} settings).mapError ServerFault.message
  return server.session.registry.tree.map TreeLine.render

/-- The bytes of a file, or nothing if there is no such file. -/
def readIfPresent (path : String) : IO (Option (List UInt8)) := do
  try
    return some (← IO.FS.readBinFile path).data.toList
  catch
    | .noFileOrDirectory .. => return none
    | fault => throw fault

end ChannelServer

/-- Shows the channel tree of the configuration in the file that STAMMTISCH_CONFIG names. -/
def main : IO UInt32 := do
  let path := (← IO.getEnv "STAMMTISCH_CONFIG").getD "stammtisch.toml"
  match ChannelServer.report path (← ChannelServer.readIfPresent path) with
  | .ok lines =>
    for line in lines do IO.println line
    return 0
  | .error message =>
    IO.eprintln message
    return 1
