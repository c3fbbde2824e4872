import UiDoc.Decimal
import UiDoc.Text.Class

/-!
# Configuration

Every setting has a default.  Some of them can be given by variables of the environment.
-/

namespace UiDoc

/-- When the counters of the guard start anew. -/
inductive TickCadence where
  /-- When a pass begins and so many milliseconds have gone by. -/
  | interval (millis : Nat)
  /-- When a pass begins. -/
  | perRender
  /-- When the host says so. -/
  | manual
  deriving DecidableEq, Repr

/-- The settings of an interpreter. -/
structure Config where
  /-- The deepest level that is interpreted. -/
  maxDepth : Nat := 64
  /-- How many components are interpreted between two ticks. -/
  maxCallsPerTick : Nat := 5000
  /-- How many fallbacks are shown between two ticks. -/
  maxFallbacksPerTick : Nat := 3
  tick : TickCadence := .interval 16
  /-- Whether bindings that are undefined are recorded. -/
  devMode : Bool := false
  deriving DecidableEq, Repr

/-- A variable that does not have a usable value. -/
structure ConfigError where
  key : String
  value : String
  deriving DecidableEq, Repr

/-- The text of an error. -/
def ConfigError.message (e : ConfigError) : String :=
  "invalid configuration value for " ++ e.key ++ ": " ++ e.value

namespace Config

/-- The variable of the deepest level. -/
def maxDepthKey : String := "JSONUI_MAX_DEPTH"

/-- The variable of the number of components. -/
def maxCallsKey : String := "JSONUI_MAX_CALLS_PER_TICK"

/-- The variable of the number of fallbacks. -/
def maxFallbacksKey : String := "JSONUI_MAX_FALLBACKS_PER_TICK"

/-- The variable that says whether a document is being developed. -/
def devModeKey : String := "JSONUI_DEV_MODE"

/-- The count that a variable holds, or a default if it is not set. -/
def countOf (lookup : String → Option String) (key : String) (default : Nat) :
    Except ConfigError Nat :=
  match lookup key with
  | none => .ok default
  | some text =>
      match Decimal.readCount (Text.trim text.toList) with
      | some n => .ok n
      | none => .error ⟨key, text⟩

/-- The truth value that a word stands for. -/
def readFlag (text : String) : Option Bool :=
  let word := String.ofList ((Text.trim text.toList).map Decimal.asciiLower)
  if word ∈ ["1", "true", "yes", "on"] then some true
  else if word ∈ ["0", "false", "no", "off", ""] then some false
  else none

/-- The truth value that a variable holds, or a default if it is not set. -/
def flagOf (lookup : String → Option String) (key : String) (default : Bool) :
    Except ConfigError Bool :=
  match lookup key with
  | none => .ok default
  | some text =>
      match readFlag text with
      | some b => .ok b
      | none => .error ⟨key, text⟩

/-- The defaults with what the environment sets. -/
def ofEnvironment (lookup : String → Option String) : Except ConfigError Config := do
  let base : Config := {}
  let maxDepth ← countOf lookup maxDepthKey base.maxDepth
  let maxCallsPerTick ← countOf lookup maxCallsKey base.maxCallsPerTick
  let maxFallbacksPerTick ← countOf lookup maxFallbacksKey base.maxFallbacksPerTick
  let devMode ← flagOf lookup devModeKey base.devMode
  return { maxDepth, maxCallsPerTick, maxFallbacksPerTick, devMode }

end Config

end UiDoc
