import Wavefront.Config
import Wavefront.Directory
import Wavefront.Event

/-!
# Loading settings

Settings come from the file that an environment variable names, if it names one, and are then
overridden from the environment. Loading fails as a whole: with a file that cannot be read, with a
text that is no settings, or with a variable that is no flag.
-/

namespace Wavefront

/-- The variables of a process. -/
abbrev Environment := List (String × String)

namespace Config

/-- Why settings could not be loaded. -/
inductive LoadError
  | unreadable (path : String) (why : ReadFailure)
  | invalid (path : String) (problem : Json.Problem)
  | badFlag (e : BadFlag)
deriving DecidableEq

/-- The text of a load error. -/
def LoadError.message : LoadError → String
  | unreadable path why => "failed to read " ++ path ++ ": " ++ why.message
  | invalid path _ => "invalid config at " ++ path
  | badFlag e => e.message

/-- Settings from a file. -/
def ofFile (d : Directory) (path : String) : Except LoadError Config :=
  match d.read path with
  | .error why => .error (.unreadable path why)
  | .ok text =>
    match ofJson text with
    | .error problem => .error (.invalid path problem)
    | .ok c => .ok c

/-- Settings from the file that the environment names, if it does, and from the environment. -/
def load (d : Directory) (env : Environment) : Except LoadError Config := do
  let c ← match env.lookup pathVariable with
    | some path => ofFile d path
    | none => .ok defaults
  match c.applyEnv fun key => env.lookup key with
  | (c, none) => return c
  | (_, some e) => throw (.badFlag e)

/-- The event of settings that were loaded. -/
def loadedEvent (c : Config) : Event := .configLoaded c.text

end Config

end Wavefront
