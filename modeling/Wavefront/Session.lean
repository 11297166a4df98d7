import Wavefront.Config.Load
import Wavefront.Features
import Wavefront.Register

/-!
# A session

A session is the life of one process. It settles its configuration once, before anything else, and
never changes it: the settings it could load, or the defaults if it could not load them. It looks at
the features of its processor once as well, and logs them then if the settings say so.
-/

namespace Wavefront

/-- What a process keeps for its whole life. -/
structure Session where
  /-- the settings -/
  config : Config
  /-- what the processor offers -/
  features : Features
  /-- the features have been looked at -/
  detected : Bool

namespace Session

/-- Starts a session, with the event of settling its settings. -/
def start (d : Directory) (env : Environment) (features : Features) : Session × Event :=
  match Config.load d env with
  | .ok c => (⟨c, features, false⟩, c.loadedEvent)
  | .error e => (⟨Config.defaults, features, false⟩, .configFallback e.message)

/-- Looks at the features of the processor. The first time may leave an event. -/
def detect (p : Session) : Session × Features × List Event :=
  let isNews := !p.detected && p.config.logFeatures
  let event := Event.featuresDetected p.features.logText Backend.quad.name Backend.quad.lanes
  ({ p with detected := true }, p.features, if isNews then [event] else [])

/-- The features that the backend needs are there. -/
def requirementsMet (p : Session) : Bool := p.features.contains Features.required

end Session

end Wavefront
