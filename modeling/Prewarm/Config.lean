import Prewarm.Text.Blank
import Prewarm.Text.Numeral
import Prewarm.Time

/-!
# Settings

The settings of the controller come from environment variables. They are read in the order of the
fields, and the first variable that is missing or malformed is the one reported. `validate` says
which settings the controller runs with.
-/

namespace Prewarm

/-- The settings of the controller. -/
structure Config where
  /-- The image with the program that sleeps. -/
  sleeperImage : String
  workers : Nat
  /-- The seconds between two whole listings. -/
  resyncSeconds : Nat
  /-- How many seconds the first listings may take. -/
  cacheSyncSeconds : Nat
  /-- The namespace to which the controller is restricted, as it was given. -/
  namespaceField : Option String
  /-- How many seconds a registry may take. -/
  registrySeconds : Nat
  httpPort : Nat
  deriving DecidableEq, Repr

namespace Config

/-- An environment variable that cannot be used. -/
inductive EnvFault where
  | missing (name : String)
  | malformed (name : String)
  deriving DecidableEq, Repr

/-- What is said of an environment variable that cannot be used. -/
def EnvFault.message : EnvFault → String
  | missing v => "Environment variable " ++ v ++ " is missing"
  | malformed v => "Failed to parse environment variable " ++ v

/-- Why the controller does not run with its settings. -/
inductive Fault where
  | noSleeperImage
  | noWorkers
  deriving DecidableEq, Repr

/-- What is said of settings the controller does not run with. -/
def Fault.message : Fault → String
  | noSleeperImage => "WARMIMAGE_SLEEPER_IMAGE must not be empty"
  | noWorkers => "WARMIMAGE_WORKERS must be at least 1"

/-- The number below a bound that a variable holds, or a standard one if it is not set. -/
def number (env : String → Option String) (bound : Nat) (name : String) (standard : Nat) :
    Except EnvFault Nat :=
  match env name with
  | none => .ok standard
  | some s =>
    match Text.readBelow bound s with
    | some n => .ok n
    | none => .error (.malformed name)

/-- The text that a variable holds, which has to be set. -/
def required (env : String → Option String) (name : String) : Except EnvFault String :=
  match env name with
  | some s => .ok s
  | none => .error (.missing name)

/-- The settings in an environment. -/
def ofEnv (env : String → Option String) : Except EnvFault Config := do
  let sleeperImage ← required env "WARMIMAGE_SLEEPER_IMAGE"
  let workers ← number env (Nat.pow 2 64) "WARMIMAGE_WORKERS" 2
  let resyncSeconds ← number env (Nat.pow 2 64) "WARMIMAGE_RESYNC_SECS" 30
  let cacheSyncSeconds ← number env (Nat.pow 2 64) "WARMIMAGE_CACHE_SYNC_TIMEOUT_SECS" 60
  let registrySeconds ← number env (Nat.pow 2 64) "WARMIMAGE_REGISTRY_TIMEOUT_SECS" 30
  let httpPort ← number env (Nat.pow 2 16) "HTTP_PORT" 8080
  return {
    sleeperImage, workers, resyncSeconds, cacheSyncSeconds
    namespaceField := env "WARMIMAGE_NAMESPACE"
    registrySeconds, httpPort }

/-- The settings, if the controller runs with them. -/
def validate (c : Config) : Except Fault Config :=
  if Text.trim c.sleeperImage.toList = [] then .error .noSleeperImage
  else if c.workers = 0 then .error .noWorkers
  else .ok c

/-- The time between two whole listings. -/
def resync (c : Config) : Duration := .ofSeconds c.resyncSeconds

/-- The time the first listings may take. -/
def cacheSyncTimeout (c : Config) : Duration := .ofSeconds c.cacheSyncSeconds

/-- The time a registry may take. -/
def registryTimeout (c : Config) : Duration := .ofSeconds c.registrySeconds

/-- The namespace to which the controller is restricted. An empty name restricts it to none. -/
def ns? (c : Config) : Option String := c.namespaceField.filter (· ≠ "")

/-- Where the health pages are served. -/
def httpAddress (c : Config) : String := "0.0.0.0:" ++ toString c.httpPort

end Config

end Prewarm
