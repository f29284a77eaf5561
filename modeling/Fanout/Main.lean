import Fanout.Settings

/-!
# The command line

Loads the settings of a node from the file that the first argument names, or from `config.toml`, and
tells where the node's broker is and where the node hosts the hub, if it does. Settings that cannot
be used are reported on the error stream, and the exit code is 1.
-/

namespace Fanout

/-- The contents of a file, if it can be read. -/
def readContents (path : String) : IO (Option Bytes) := do
  try
    return some (← IO.FS.readBinFile path).data.toList
  catch _ =>
    return none

def Settings.summary (settings : Settings) (hub : Option (String × Nat)) : String :=
  let hosting := match hub with
    | some (host, number) => s!", hub at {host}:{number}"
    | none => ""
  s!"Node {settings.id}: broker at {settings.endpoint}{hosting}"

def complain (context : String) (fault : Fault) : IO UInt32 := do
  IO.eprintln (context ++ ": " ++ fault.text)
  return 1

end Fanout

/-- Loads a node's settings and tells what they say. -/
def main (arguments : List String) : IO UInt32 := do
  match Fanout.Settings.ofFile (← Fanout.readContents (arguments.headD "config.toml")) with
  | .error fault => Fanout.complain "Failed to load configuration" fault
  | .ok settings =>
    match settings.hubAddress with
    | .error fault => Fanout.complain "Node failed" fault
    | .ok hub =>
      IO.println (settings.summary hub)
      return 0
