import GateBench.Config.Environment
import GateBench.Config.File
import GateBench.Files

/-!
The configuration in force: that of a file, or the defaults; over it the variables of the
environment; over these the flags of the command line.
-/

namespace GateBench.Config

open GateBench.Message

/-- The settings that flags of the command line override. -/
structure Flags where
  timeout : Option Nat := none
  profile : Option Profile := none
  mode : Option WorkerMode := none
deriving DecidableEq, Repr

/-- Override the settings whose flags are given. -/
def withFlags (flags : Flags) (config : Config) : Config :=
  { config with
    worker := { config.worker with
      timeout := flags.timeout.getD config.worker.timeout
      mode := flags.mode.getD config.worker.mode }
    profile := flags.profile.getD config.profile }

/-- The path of the file that is read unless another is named, below the home folder. -/
def defaultPath (home : String) : String :=
  (if home.endsWith "/" then home else home ++ "/") ++ ".qbridge/config.yaml"

/-- Read the configuration in the file at a path. -/
def ofPath (files : Files) (path : String) : Except Error Config :=
  match (files path).contents with
  | .ok text => ofFile path text
  | .error reason => .error (.unreadable path reason)

/-- The configuration of the file that is named, else of the file in the home folder if there is
one, else the defaults. -/
def stored (files : Files) (home : Option String) (named : Option String) : Except Error Config :=
  match named with
  | some path => ofPath files path
  | none =>
    match (home.map defaultPath).filter fun path => (files path).isPresent with
    | some path => ofPath files path
    | none => .ok {}

/-- Put the environment and the flags over a stored configuration.  It is validated before the flags
are put over it and again after that. -/
def combine (config : Config) (environment : Environment) (flags : Flags) :
    Except Error Config := do
  let config ← config.withEnvironment environment
  let config ← config.validate
  (config.withFlags flags).validate

end GateBench.Config
