/-!
# Log events

What the library logs, each event with its level and its line. Several operations log and then go
on, so an event is a value next to the result and not an effect.
-/

namespace Wavefront

/-- How much an event matters. -/
inductive Level
  | warn
  | debug
  | trace
deriving DecidableEq

/-- The name of a level. -/
def Level.name : Level → String
  | warn => "WARN"
  | debug => "DEBUG"
  | trace => "TRACE"

/-- Something worth a line in the log. -/
inductive Event
  /-- a flip of a write mask with no open conditional -/
  | flipWithoutBranch
  /-- a pop of a write mask with no open conditional -/
  | popWithoutBranch
  /-- a loop has ended after so many turns -/
  | loopFinished (turns : Nat)
  /-- an indexed read met lanes whose index names no candidate -/
  | unmatchedIndex (lanes candidates : Nat)
  /-- settings were loaded, with their text -/
  | configLoaded (config : String)
  /-- settings could not be loaded, and the defaults are used -/
  | configFallback (reason : String)
  /-- the features of the processor were listed, beside the backend in use -/
  | featuresDetected (features backend : String) (lanes : Nat)
deriving DecidableEq

namespace Event

/-- The level of an event. -/
def level : Event → Level
  | flipWithoutBranch | popWithoutBranch | configLoaded _ | featuresDetected .. => .debug
  | loopFinished _ | unmatchedIndex .. => .trace
  | configFallback _ => .warn

/-- The text of an event. -/
def message : Event → String
  | flipWithoutBranch => "write mask: flip with no open branch"
  | popWithoutBranch => "write mask: pop with no open branch"
  | loopFinished turns => s!"write mask: loop finished after {turns} iteration(s)"
  | unmatchedIndex lanes candidates =>
    s!"indexed read: {lanes} lane(s) out of range for {candidates} candidates"
  | configLoaded config => s!"config loaded: {config}"
  | configFallback reason => s!"falling back to default config: {reason}"
  | featuresDetected features backend lanes =>
    s!"cpu features: {features}; native backend {backend} ({lanes} lanes)"

/-- The line of an event: its level and its text. -/
def line (e : Event) : String := e.level.name ++ " " ++ e.message

end Event

end Wavefront
