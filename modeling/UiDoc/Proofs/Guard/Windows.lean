import UiDoc.Proofs.Guard

/-!
# Windows of the guard

Between two resets of its counters lies a window.  Whatever is asked of a guard, and in whatever
order, what it decides in a window follows from the limits and from what it has decided in this
window before, and its counters say how much that was.
-/

namespace UiDoc

/-- Whether a component is cut off for its depth. -/
def Decision.cutsOff : Decision → Bool
  | depthExceeded _ => true
  | proceed | halted => false

namespace Guard

/-- What can be asked of a guard. -/
inductive Call where
  | enter (depth : Nat)
  | tick (now : Nat)
  | beginRender (now : Nat)
  deriving DecidableEq, Repr

namespace Call

/-- The guard after a call. -/
def perform (g : Guard) : Call → Guard
  | enter depth => (g.enter depth).2
  | tick now => g.tick now
  | beginRender now => g.beginRender now

/-- What is decided in a call, with the depth of the component. -/
def decided (g : Guard) : Call → List (Nat × Decision)
  | enter depth => [(depth, (g.enter depth).1)]
  | tick _ | beginRender _ => []

/-- The time of a call that opens a window, where the last one was opened at `start`.  A tick always
does, and the beginning of a pass does if passes have windows of their own, or once the interval has
elapsed. -/
def opens (cadence : TickCadence) (start : Nat) : Call → Option Nat
  | enter _ => none
  | tick now => some now
  | beginRender now =>
      match cadence with
      | .perRender => some now
      | .interval millis => if millis ≤ now - start then some now else none
      | .manual => none

end Call

/-- A window of a guard. -/
structure Window where
  /-- The time at which it was opened. -/
  start : Nat
  /-- How many windows there have been before. -/
  earlier : Nat := 0
  /-- What has been decided in it, in order, with the depths of the components. -/
  decisions : List (Nat × Decision) := []
  deriving DecidableEq, Repr

/-- The window after a call of a guard. -/
def Window.next (config : Config) (w : Window) (g : Guard) (call : Call) : Window :=
  match call.opens config.tick w.start with
  | some now => { start := now, earlier := w.earlier + 1 }
  | none => { w with decisions := w.decisions ++ call.decided g }

/-- The guard and the window after calls. -/
def watch (config : Config) : List Call → Guard → Window → Guard × Window
  | [], g, w => (g, w)
  | call :: calls, g, w => watch config calls (call.perform g) (w.next config g call)

/-- How many components have been cut off. -/
def cutOffs (decisions : List (Nat × Decision)) : Nat :=
  decisions.countP fun entry => entry.2.cutsOff

/-- What is to be decided about a component after what has been decided in the window before. -/
def verdict (config : Config) (before : List (Nat × Decision)) (depth : Nat) : Decision :=
  if config.maxCallsPerTick ≤ before.length then .halted
  else if depth ≤ config.maxDepth then .proceed
  else .depthExceeded (cutOffs before < config.maxFallbacksPerTick)

/-- The counters of the guard tell what has been decided in the window, and it has been decided as
it was to be. -/
structure Tells (config : Config) (g : Guard) (w : Window) : Prop extends g.Obeys config where
  ticks : g.ticks = w.earlier
  start : g.windowStart = w.start
  calls : g.calls = min w.decisions.length (config.maxCallsPerTick + 1)
  halted : g.halted = true ↔ config.maxCallsPerTick < w.decisions.length
  fallbacks : g.fallbacksShown = min (cutOffs w.decisions) config.maxFallbacksPerTick
  lawful : ∀ k depth decision, w.decisions[k]? = some (depth, decision) →
    decision = verdict config (w.decisions.take k) depth

variable {config : Config} {g after : Guard} {w : Window} {depth : Nat} {decision : Decision}

/-! ## One call -/

@[simp] theorem cutOffs_append_singleton (before : List (Nat × Decision)) (depth : Nat)
    (decision : Decision) :
    cutOffs (before ++ [(depth, decision)]) = cutOffs before + decision.cutsOff.toNat := by
  cases cuts : decision.cutsOff <;> simp [cutOffs, cuts]

/-- No component opens a window. -/
theorem Enters.same_window (enters : Enters depth g decision after) :
    after.ticks = g.ticks ∧ after.windowStart = g.windowStart := by
  cases enters <;> exact ⟨rfl, rfl⟩

/-- At the beginning of a window nothing has been decided, and the counters tell so. -/
theorem tells_unasked (obeys : g.Obeys config) (calls : g.calls = 0) (running : g.halted = false)
    (shown : g.fallbacksShown = 0) :
    Tells config g { start := g.windowStart, earlier := g.ticks } where
  toObeys := obeys
  ticks := rfl
  start := rfl
  calls := calls.trans (Nat.zero_min _).symm
  halted := by simp [running]
  fallbacks := shown.trans (Nat.zero_min _).symm
  lawful k depth decision listed := by simp at listed

/-- A reset opens a window. -/
theorem Tells.reset (tells : Tells config g w) (now : Nat) :
    Tells config (g.reset now) { start := now, earlier := w.earlier + 1 } :=
  tells.ticks ▸ tells_unasked (tells.toObeys.reset now) rfl rfl rfl

/-- The guard decides what is to be decided. -/
theorem Tells.decides (tells : Tells config g w) (depth : Nat) :
    (g.enter depth).1 = verdict config w.decisions depth := by
  have calls := tells.calls
  have halted := tells.halted
  have fallbacks := tells.fallbacks
  have enters := g.enters depth
  generalize (g.enter depth).1 = decision, (g.enter depth).2 = after at enters ⊢
  rw [verdict]
  cases enters with
  | stillHalted stopped =>
      have exhausted := halted.1 stopped
      rw [if_pos (by omega)]
  | halts running exhausted =>
      rw [tells.maxCalls] at exhausted
      rw [if_pos (by omega)]
  | fallback running left deep shown =>
      rw [tells.maxCalls] at left
      rw [tells.maxDepth] at deep
      rw [tells.maxFallbacks] at shown
      have few : cutOffs w.decisions < config.maxFallbacksPerTick := by omega
      rw [if_neg (by omega), if_neg (by omega), decide_eq_true few]
  | hidden running left deep spent =>
      rw [tells.maxCalls] at left
      rw [tells.maxDepth] at deep
      rw [tells.maxFallbacks] at spent
      have many : ¬ cutOffs w.decisions < config.maxFallbacksPerTick := by omega
      rw [if_neg (by omega), if_neg (by omega), decide_eq_false many]
  | proceeds running left shallow =>
      rw [tells.maxCalls] at left
      rw [tells.maxDepth] at shallow
      rw [if_neg (by omega), if_pos shallow]

/-- What is decided next is decided as it is to be, and so is all before it. -/
theorem Tells.lawful_enter (tells : Tells config g w) (depth : Nat) :
    let decisions := w.decisions ++ [(depth, (g.enter depth).1)]
    ∀ k d decision, decisions[k]? = some (d, decision) →
      decision = verdict config (decisions.take k) d := by
  intro decisions k d decision listed
  rcases Nat.lt_trichotomy k w.decisions.length with earlier | last | beyond
  · rw [List.getElem?_append_left earlier] at listed
    rw [List.take_append_of_le_length (Nat.le_of_lt earlier)]
    exact tells.lawful k d decision listed
  · subst last
    rw [List.getElem?_append_right (Nat.le_refl _), Nat.sub_self] at listed
    cases listed
    rw [List.take_left]
    exact tells.decides depth
  · have none : decisions[k]? = none := List.getElem?_eq_none (by simp [decisions]; omega)
    rw [none] at listed
    cases listed

/-- As long as the guard is not halted, all that has been decided is counted. -/
theorem Tells.calls_of_running (tells : Tells config g w) (running : g.halted = false) :
    g.calls = w.decisions.length ∧ w.decisions.length ≤ config.maxCallsPerTick := by
  have calls := tells.calls
  have halted := tells.halted
  rw [running] at halted
  have room : w.decisions.length ≤ config.maxCallsPerTick :=
    Nat.le_of_not_lt fun exhausted => nomatch halted.2 exhausted
  exact ⟨by omega, room⟩

/-- The guard counts a component, unless it has been halted before. -/
theorem Tells.calls_enters (tells : Tells config g w) (enters : Enters depth g decision after) :
    after.calls = min (w.decisions.length + 1) (config.maxCallsPerTick + 1) := by
  cases enters with
  | stillHalted stopped =>
      have exhausted := tells.halted.1 stopped
      have calls := tells.calls
      omega
  | halts running | fallback running | hidden running | proceeds running =>
      have counted := tells.calls_of_running running
      change g.calls + 1 = _
      omega

/-- The guard is halted by the first component that is one too many. -/
theorem Tells.halted_enters (tells : Tells config g w) (enters : Enters depth g decision after) :
    after.halted = true ↔ config.maxCallsPerTick < w.decisions.length + 1 := by
  have maxCalls := tells.maxCalls
  cases enters with
  | stillHalted stopped =>
      have exhausted := tells.halted.1 stopped
      exact ⟨fun _ => by omega, fun _ => stopped⟩
  | halts running exhausted =>
      have counted := tells.calls_of_running running
      exact ⟨fun _ => by omega, fun _ => rfl⟩
  | fallback running left | hidden running left | proceeds running left =>
      have counted := tells.calls_of_running running
      change g.halted = true ↔ _
      rw [running]
      exact ⟨nofun, fun exhausted => by omega⟩

/-- A fallback is shown for what is cut off, as long as any are left. -/
theorem Tells.fallbacks_enters (tells : Tells config g w)
    (enters : Enters depth g decision after) :
    after.fallbacksShown =
      min (cutOffs w.decisions + decision.cutsOff.toNat) config.maxFallbacksPerTick := by
  have fallbacks := tells.fallbacks
  have maxFallbacks := tells.maxFallbacks
  cases enters with
  | stillHalted | halts | proceeds => exact fallbacks
  | fallback running left deep shown =>
      change g.fallbacksShown + 1 = min (cutOffs w.decisions + 1) _
      omega
  | hidden running left deep spent =>
      change g.fallbacksShown = min (cutOffs w.decisions + 1) _
      omega

/-- The counters tell that a component has been decided about. -/
theorem Tells.enter (tells : Tells config g w) (depth : Nat) :
    Tells config (g.enter depth).2
      { w with decisions := w.decisions ++ [(depth, (g.enter depth).1)] } where
  toObeys := tells.toObeys.enters (g.enters depth)
  ticks := (g.enters depth).same_window.1.trans tells.ticks
  start := (g.enters depth).same_window.2.trans tells.start
  calls := by
    rw [List.length_append]
    exact tells.calls_enters (g.enters depth)
  halted := by
    rw [List.length_append]
    exact tells.halted_enters (g.enters depth)
  fallbacks := by
    rw [cutOffs_append_singleton]
    exact tells.fallbacks_enters (g.enters depth)
  lawful := tells.lawful_enter depth

/-- The beginning of a pass resets the guard if it opens a window, and else changes nothing. -/
theorem beginRender_eq (g : Guard) (now : Nat) :
    g.beginRender now =
      (((Call.beginRender now).opens g.cadence g.windowStart).map (g.reset ·)).getD g := by
  simp only [Guard.beginRender, Call.opens]
  cases g.cadence with
  | perRender | manual => rfl
  | interval millis =>
      dsimp only
      split <;> rfl

/-- A call that opens a window resets the guard. -/
theorem Call.perform_of_opens {call : Call} {now : Nat}
    (opens : call.opens g.cadence g.windowStart = some now) : call.perform g = g.reset now := by
  cases call with
  | enter depth => cases opens
  | tick later =>
      cases opens
      rfl
  | beginRender later =>
      rw [perform, beginRender_eq, opens]
      rfl

theorem beginRender_of_opens_eq_none {now : Nat}
    (opens : (Call.beginRender now).opens g.cadence g.windowStart = none) :
    g.beginRender now = g := by
  rw [beginRender_eq, opens]
  rfl

/-- A call that opens no window does not reset the guard. -/
theorem Call.ticks_perform {call : Call}
    (opens : call.opens g.cadence g.windowStart = none) : (call.perform g).ticks = g.ticks := by
  cases call with
  | enter depth => exact (g.enters depth).same_window.1
  | tick now => cases opens
  | beginRender now => rw [perform, beginRender_of_opens_eq_none opens]

/-- Whatever the call is, the counters still tell what has been decided. -/
theorem Tells.perform (tells : Tells config g w) (call : Call) :
    Tells config (call.perform g) (w.next config g call) := by
  have same : call.opens g.cadence g.windowStart = call.opens config.tick w.start := by
    rw [tells.cadence, tells.start]
  cases opens : call.opens config.tick w.start with
  | some now =>
      simp only [Window.next, opens]
      rw [Call.perform_of_opens (same.trans opens)]
      exact tells.reset now
  | none =>
      simp only [Window.next, opens]
      cases call with
      | enter depth => exact tells.enter depth
      | tick now => cases opens
      | beginRender now =>
          rw [Call.perform, beginRender_of_opens_eq_none (same.trans opens), Call.decided,
            List.append_nil]
          exact tells

/-! ## Runs -/

/-- Nothing has been asked of a guard that has just been made. -/
theorem tells_ofConfig (config : Config) (made : Nat) :
    Tells config (.ofConfig config made) { start := made } :=
  tells_unasked ⟨rfl, rfl, rfl, rfl⟩ rfl rfl rfl

/-- Whatever is asked, the counters of the guard stay true. -/
theorem Tells.watch (tells : Tells config g w) (calls : List Call) :
    Tells config (Guard.watch config calls g w).1 (Guard.watch config calls g w).2 := by
  induction calls generalizing g w with
  | nil => exact tells
  | cons call rest ih => exact ih (tells.perform call)

/-- What a verdict is. -/
theorem verdict_spec (config : Config) (before : List (Nat × Decision)) (depth : Nat) :
    let decision := verdict config before depth
    (decision = .halted ↔ config.maxCallsPerTick ≤ before.length) ∧
      (decision ≠ .halted → (decision = .proceed ↔ depth ≤ config.maxDepth)) ∧
      ∀ shown, decision = .depthExceeded shown →
        (shown = true ↔ cutOffs before < config.maxFallbacksPerTick) := by
  intro decision
  simp only [decision, verdict]
  split
  · simp_all
  · split <;> simp_all

/-- Whatever is asked of a guard, in the window that it has come to exactly the first `maxCalls`
components are not halted, of these exactly those within the depth proceed, and of the others
exactly the first `maxFallbacks` show a fallback.  The guard is halted exactly if more components
have asked than may, and its calls are counted up to the one that halted it.  A call that opens a
window resets the guard, and no other call does. -/
theorem watch_decides (config : Config) (made : Nat) (calls : List Call) :
    let (g, w) := watch config calls (.ofConfig config made) { start := made }
    (∀ k depth decision, w.decisions[k]? = some (depth, decision) →
      (decision = .halted ↔ config.maxCallsPerTick ≤ k) ∧
      (decision ≠ .halted → (decision = .proceed ↔ depth ≤ config.maxDepth)) ∧
      ∀ shown, decision = .depthExceeded shown →
        (shown = true ↔ cutOffs (w.decisions.take k) < config.maxFallbacksPerTick)) ∧
    (g.halted = true ↔ config.maxCallsPerTick < w.decisions.length) ∧
    g.calls = min w.decisions.length (config.maxCallsPerTick + 1) ∧
    g.ticks = w.earlier ∧
    ∀ call : Call, match call.opens config.tick w.start with
      | some now => call.perform g = g.reset now
      | none => (call.perform g).ticks = g.ticks := by
  have tells := (tells_ofConfig config made).watch calls
  generalize watch config calls (.ofConfig config made) { start := made } = watched at tells ⊢
  obtain ⟨g, w⟩ := watched
  refine ⟨fun k depth decision listed => ?_, tells.halted, tells.calls, tells.ticks, ?_⟩
  · have within : k < w.decisions.length := (List.getElem?_eq_some_iff.1 listed).1
    have before : (w.decisions.take k).length = k := List.length_take_of_le (Nat.le_of_lt within)
    have spec := verdict_spec config (w.decisions.take k) depth
    rwa [← tells.lawful k depth decision listed, before] at spec
  · intro call
    rw [← tells.cadence, ← tells.start]
    split
    · rename_i now opens
      exact Call.perform_of_opens opens
    · rename_i opens
      exact Call.ticks_perform opens

/-- Two components may ask in a window and one fallback is shown: the last of the first three is
halted, and a tick opens the next window. -/
example :
    let config : Config :=
      { maxDepth := 0, maxCallsPerTick := 2, maxFallbacksPerTick := 1, tick := .manual }
    let seen (calls : List Call) := (watch config calls (.ofConfig config 0) { start := 0 }).2
    (seen [.enter 1, .enter 1, .enter 0]).decisions =
        [(1, .depthExceeded true), (1, .depthExceeded false), (0, .halted)] ∧
      seen [.enter 1, .enter 1, .enter 0, .beginRender 8, .tick 9, .enter 0] =
        ⟨9, 1, [(0, .proceed)]⟩ := by
  decide

end Guard

end UiDoc
