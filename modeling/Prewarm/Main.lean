import Prewarm.Config
import Prewarm.Sleeper.Options
import Prewarm.WarmImage.Manifest
import Prewarm.Yaml

/-!
# Command lines

`prewarm definition` prints the definition of warm images, to be applied to a cluster.
`prewarm settings` says whether the controller runs with the settings in the environment.
`prewarm sleeper` is the program that sleeps in a pod or leaves a copy of itself for another
container; the arguments after it are those of that program.
-/

namespace Prewarm

/-- How to use the program that sleeps. -/
def sleeperUsage : String := "usage: --mode sleep | --mode copy --to PATH"

/-- Sleeps, or copies this program to a place. -/
def runSleeper (args : List String) : IO UInt32 := do
  match Sleeper.parse args with
  | .error r =>
    if r = .help then IO.println sleeperUsage
    else if r = .version then IO.println "0.1.0"
    else IO.eprintln sleeperUsage
    return r.exitCode.toUInt32
  | .ok .sleep =>
    for _ in [0:30 * 365] do
      IO.sleep (24 * 60 * 60 * 1000)
    return 1
  | .ok (.copy destination) =>
    try
      let self ← IO.appPath
      IO.FS.writeBinFile destination (← IO.FS.readBinFile self)
      let all : IO.AccessRight := { read := true, write := true, execution := true }
      IO.setAccessRights destination ⟨all, all, all⟩
      return 0
    catch e =>
      IO.eprintln s!"copying to {destination}: {e}"
      return 1

/-- The environment variables that hold settings. -/
def settingNames : List String :=
  ["WARMIMAGE_SLEEPER_IMAGE", "WARMIMAGE_WORKERS", "WARMIMAGE_RESYNC_SECS",
    "WARMIMAGE_CACHE_SYNC_TIMEOUT_SECS", "WARMIMAGE_NAMESPACE",
    "WARMIMAGE_REGISTRY_TIMEOUT_SECS", "HTTP_PORT"]

/-- Says whether the controller runs with the settings in the environment. -/
def checkSettings : IO UInt32 := do
  let values ← settingNames.mapM (fun n => do return (n, ← IO.getEnv n))
  match Config.ofEnv (fun n => (values.lookup n).join) with
  | .error e =>
    IO.eprintln e.message
    return 1
  | .ok c =>
    match c.validate with
    | .error e =>
      IO.eprintln e.message
      return 1
    | .ok c =>
      IO.println s!"serving health pages at {c.httpAddress}"
      return 0

end Prewarm

open Prewarm in
/-- The command lines of the program. -/
def main (args : List String) : IO UInt32 := do
  match args with
  | "definition" :: _ =>
    IO.print (Yaml.render WarmImage.Manifest.document)
    return 0
  | "settings" :: _ => checkSettings
  | "sleeper" :: rest => runSleeper rest
  | _ =>
    IO.eprintln "usage: prewarm definition | settings | sleeper ..."
    return 2
