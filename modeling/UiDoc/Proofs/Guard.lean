import UiDoc.Guard

/-!
# What the guard does to a component

All that can happen when a component asks the guard, with the reasons.
-/

namespace UiDoc.Guard

/-- The guard after one more call. -/
def counted (g : Guard) : Guard :=
  { g with calls := g.calls + 1 }

/-- What the guard decides, why, and what it counts. -/
inductive Enters (depth : Nat) (g : Guard) : Decision → Guard → Prop where
  | stillHalted : g.halted = true → Enters depth g .halted g
  | halts : g.halted = false → g.maxCalls < g.calls + 1 →
      Enters depth g .halted { g.counted with halted := true }
  | fallback : g.halted = false → g.calls + 1 ≤ g.maxCalls → g.maxDepth < depth →
      g.fallbacksShown < g.maxFallbacks →
      Enters depth g (.depthExceeded true)
        { g.counted with fallbacksShown := g.fallbacksShown + 1 }
  | hidden : g.halted = false → g.calls + 1 ≤ g.maxCalls → g.maxDepth < depth →
      g.maxFallbacks ≤ g.fallbacksShown → Enters depth g (.depthExceeded false) g.counted
  | proceeds : g.halted = false → g.calls + 1 ≤ g.maxCalls → depth ≤ g.maxDepth →
      Enters depth g .proceed g.counted

theorem enters (depth : Nat) (g : Guard) :
    Enters depth g (g.enter depth).1 (g.enter depth).2 := by
  cases halted : g.halted with
  | true =>
      simp only [enter]
      simp only [if_pos halted]
      exact .stillHalted halted
  | false =>
      have running : ¬ g.halted = true := by simp [halted]
      simp only [enter]
      simp only [if_neg running]
      split
      · rename_i exhausted
        exact .halts halted exhausted
      · rename_i left
        have left : g.calls + 1 ≤ g.maxCalls := Nat.le_of_not_lt left
        split
        · rename_i deep
          split
          · rename_i shown
            exact .fallback halted left deep shown
          · rename_i hidden
            exact .hidden halted left deep (Nat.le_of_not_lt hidden)
        · rename_i shallow
          exact .proceeds halted left (Nat.le_of_not_lt shallow)

variable {g h : Guard} {config : Config} {depth : Nat} {decision : Decision}

/-- The limits stay as they are, and no call is forgotten. -/
theorem Enters.limits (enters : Enters depth g decision h) :
    h.maxDepth = g.maxDepth ∧ h.maxCalls = g.maxCalls ∧ g.calls ≤ h.calls := by
  cases enters <;> exact ⟨rfl, rfl, by simp [counted]⟩

/-- A component that may proceed has been counted within the limits. -/
theorem Enters.of_proceed (enters : Enters depth g .proceed h) :
    g.halted = false ∧ g.calls + 1 ≤ g.maxCalls ∧ depth ≤ g.maxDepth ∧ h = g.counted := by
  cases enters with
  | proceeds running left shallow => exact ⟨running, left, shallow, rfl⟩

/-- A component within the limits may proceed. -/
theorem enter_of_left (running : g.halted = false) (left : g.calls + 1 ≤ g.maxCalls)
    (shallow : depth ≤ g.maxDepth) : g.enter depth = (.proceed, g.counted) := by
  simp [enter, running, counted, Nat.not_lt.2 left, Nat.not_lt.2 shallow]

/-! ## The limits of a configuration -/

/-- The limits of the guard are those of a configuration. -/
structure Obeys (g : Guard) (config : Config) : Prop where
  maxDepth : g.maxDepth = config.maxDepth
  maxCalls : g.maxCalls = config.maxCallsPerTick
  maxFallbacks : g.maxFallbacks = config.maxFallbacksPerTick
  cadence : g.cadence = config.tick

theorem Obeys.enters (obeys : g.Obeys config) (enters : Enters depth g decision h) :
    h.Obeys config := by
  cases enters <;> exact ⟨obeys.maxDepth, obeys.maxCalls, obeys.maxFallbacks, obeys.cadence⟩

theorem Obeys.reset (obeys : g.Obeys config) (now : Nat) : (g.reset now).Obeys config :=
  ⟨obeys.maxDepth, obeys.maxCalls, obeys.maxFallbacks, obeys.cadence⟩

theorem Obeys.beginRender (obeys : g.Obeys config) (now : Nat) :
    (g.beginRender now).Obeys config := by
  simp only [Guard.beginRender]
  split
  · exact obeys.reset now
  · split
    · exact obeys.reset now
    · exact obeys
  · exact obeys

end UiDoc.Guard
