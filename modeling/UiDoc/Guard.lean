import UiDoc.Config

/-!
# The guard

The guard counts the components that are interpreted between two ticks and halts the interpretation
once there are too many.  It cuts off what is nested too deeply, and shows a fallback for the first
few of these.
-/

namespace UiDoc

/-- What the guard decides about a component. -/
inductive Decision where
  | proceed
  | depthExceeded (showFallback : Bool)
  | halted
  deriving DecidableEq, Repr

/-- The limits and the counters of an interpreter. -/
structure Guard where
  maxDepth : Nat
  maxCalls : Nat
  maxFallbacks : Nat
  cadence : TickCadence
  calls : Nat := 0
  fallbacksShown : Nat := 0
  halted : Bool := false
  /-- How often the counters have started anew. -/
  ticks : Nat := 0
  /-- The time in milliseconds at which the counters last started. -/
  windowStart : Nat := 0
  deriving DecidableEq, Repr

namespace Guard

/-- The guard of a configuration, at a time. -/
def ofConfig (config : Config) (now : Nat) : Guard where
  maxDepth := config.maxDepth
  maxCalls := config.maxCallsPerTick
  maxFallbacks := config.maxFallbacksPerTick
  cadence := config.tick
  windowStart := now

/-- Starts the counters anew. -/
def reset (now : Nat) (g : Guard) : Guard :=
  { g with calls := 0, fallbacksShown := 0, halted := false, ticks := g.ticks + 1,
           windowStart := now }

/-- The tick of a host. -/
def tick (now : Nat) (g : Guard) : Guard :=
  g.reset now

/-- The beginning of a pass. -/
def beginRender (now : Nat) (g : Guard) : Guard :=
  match g.cadence with
  | .perRender => g.reset now
  | .interval millis => if millis ≤ now - g.windowStart then g.reset now else g
  | .manual => g

/-- Decides about a component at some depth. -/
def enter (depth : Nat) (g : Guard) : Decision × Guard :=
  if g.halted then (.halted, g)
  else
    let g := { g with calls := g.calls + 1 }
    if g.maxCalls < g.calls then (.halted, { g with halted := true })
    else if g.maxDepth < depth then
      if g.fallbacksShown < g.maxFallbacks then
        (.depthExceeded true, { g with fallbacksShown := g.fallbacksShown + 1 })
      else (.depthExceeded false, g)
    else (.proceed, g)

end Guard

end UiDoc
