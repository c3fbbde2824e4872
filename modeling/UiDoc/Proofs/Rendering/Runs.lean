import UiDoc.Proofs.Journal
import UiDoc.Render.Component

/-!
# Running parts of a pass

A part of a pass is run from a pass, and leads to a pass and a result.  This module says what each
act does to the pass that it is run from.
-/

namespace UiDoc

namespace Rendering

variable {α β : Type} {x : Rendering α} {f : α → Rendering β} {p q r : Pass}

theorem run_bind_ok {a : α} (first : x.run.run p = (.ok a, q)) :
    (x >>= f).run.run p = (f a).run.run q := by
  rw [ExceptT.run_bind, StateT.run_bind, first]
  rfl

theorem run_bind_error {h : Halt} (first : x.run.run p = (.error h, q)) :
    (x >>= f).run.run p = (.error h, q) := by
  rw [ExceptT.run_bind, StateT.run_bind, first]
  rfl

/-- A sequence has a result if both of its steps have. -/
theorem run_bind_eq_ok {b : β} :
    (x >>= f).run.run p = (.ok b, r) ↔
      ∃ a q, x.run.run p = (.ok a, q) ∧ (f a).run.run q = (.ok b, r) := by
  cases first : x.run.run p with
  | mk result q =>
      cases result with
      | error h =>
          rw [run_bind_error first]
          constructor
          · intro stuck
            cases stuck
          · rintro ⟨a, s, stuck, -⟩
            cases stuck
      | ok a =>
          rw [run_bind_ok first]
          constructor
          · exact fun rest => ⟨a, q, rfl, rest⟩
          · rintro ⟨_, _, same, rest⟩
            cases same
            exact rest

theorem run_logged (act : Logged α) (p : Pass) :
    (logged act).run.run p =
      (.ok (act.run p.journal).1, { p with journal := (act.run p.journal).2 }) := rfl

theorem run_enter (depth : Nat) (p : Pass) :
    (enter depth).run.run p =
      (.ok (p.guard.enter depth).1, { p with guard := (p.guard.enter depth).2 }) := rfl

theorem run_resolve (files : Files) (kind : String) (p : Pass) :
    (resolve files kind).run.run p =
      (.ok ((Registry.resolve files kind).run p.registry).1,
        { p with registry := ((Registry.resolve files kind).run p.registry).2 }) := rfl

/-- From passes that are related, the acts have the same result and lead to such passes. -/
def Matching (related : Pass → Pass → Prop) (x y : Rendering α) : Prop :=
  ∀ p q, related p q →
    (x.run.run p).1 = (y.run.run q).1 ∧ related (x.run.run p).2 (y.run.run q).2

theorem Matching.bind {related : Pass → Pass → Prop} {y : Rendering α} {g : α → Rendering β}
    (first : Matching related x y) (second : ∀ a, Matching related (f a) (g a)) :
    Matching related (x >>= f) (y >>= g) := by
  intro p q begins
  obtain ⟨same, onward⟩ := first p q begins
  cases run : x.run.run p with
  | mk result r =>
      rw [run] at same onward
      have other : y.run.run q = (result, (y.run.run q).2) := Prod.ext same.symm rfl
      cases result with
      | error h =>
          rw [run_bind_error run, run_bind_error other]
          exact ⟨rfl, onward⟩
      | ok a =>
          rw [run_bind_ok run, run_bind_ok other]
          exact second a r _ onward

/-- From passes with a property the acts do the same, and lead to passes with this property. -/
def SameFrom (holds : Pass → Prop) (x y : Rendering α) : Prop :=
  ∀ p, holds p → x.run.run p = y.run.run p ∧ holds (x.run.run p).2

theorem SameFrom.bind {holds : Pass → Prop} {y : Rendering α} {g : α → Rendering β}
    (first : SameFrom holds x y) (second : ∀ a, SameFrom holds (f a) (g a)) :
    SameFrom holds (x >>= f) (y >>= g) := by
  intro p has
  obtain ⟨same, hasNext⟩ := first p has
  cases run : x.run.run p with
  | mk result q =>
      rw [run] at same hasNext
      cases result with
      | error h =>
          rw [run_bind_error run, run_bind_error same.symm]
          exact ⟨rfl, hasNext⟩
      | ok a =>
          rw [run_bind_ok run, run_bind_ok same.symm]
          exact second a q hasNext

end Rendering

namespace Render

open Rendering (run_bind_ok run_bind_error)

/-- What is written about a type that is deprecated. -/
def deprecation (r : Registry) (kind : String) : Logged Unit :=
  match (r.entry? kind).filter RegistryEntry.isDeprecated with
  | some entry =>
      Logged.warnOnce .deprecatedComponent kind (deprecationMessage kind entry.notice)
  | none => pure ()

theorem steady_deprecation (r : Registry) (kind : String) : (deprecation r kind).Steady := by
  simp only [deprecation]
  split
  · exact Logged.steady_warnOnce _ _ rfl
  · exact Logged.Confined.steady (.pure _)

theorem run_warnDeprecated (kind : String) (p : Pass) :
    (warnDeprecated kind).run.run p =
      (Rendering.logged (deprecation p.registry kind)).run.run p := by
  have asks : warnDeprecated kind = (get >>= fun p : Pass =>
      match (p.registry.entry? kind).filter RegistryEntry.isDeprecated with
      | some entry => Rendering.logged
          (Logged.warnOnce .deprecatedComponent kind (deprecationMessage kind entry.notice))
      | none => pure ()) := rfl
  have looks : (get : Rendering Pass).run.run p = (.ok p, p) := rfl
  rw [asks, run_bind_ok looks]
  simp only [deprecation]
  split <;> rfl

/-- Asks the guard about a component.  There are nodes if it is cut off. -/
def gate (c : Component) (depth : Nat) : Rendering (Option (List Node)) := do
  match ← Rendering.enter depth with
  | .proceed => return none
  | .halted => Rendering.halt
  | .depthExceeded shown => return some (← cutOff c depth shown)

/-- A component is either cut off at the gate or admitted. -/
theorem component_eq (setting : Setting) (below : Renderer) (c : Component) (scope : Scope)
    (key : String) (site : Site) :
    component setting below c scope key site = (do
      match ← gate c site.depth with
      | some nodes => return nodes
      | none => admitted setting below c scope key site) := by
  simp only [component, gate, bind_assoc]
  refine congrArg _ (funext fun decision => ?_)
  cases decision with
  | proceed => simp
  | halted => rfl
  | depthExceeded shown => simp

variable {p : Pass} {c : Component} {depth : Nat}

theorem run_gate_proceed (lets : (p.guard.enter depth).1 = .proceed) :
    (gate c depth).run.run p = (.ok none, { p with guard := (p.guard.enter depth).2 }) := by
  rw [gate, run_bind_ok (Rendering.run_enter depth p), lets]
  rfl

theorem run_gate_halted (stops : (p.guard.enter depth).1 = .halted) :
    (gate c depth).run.run p =
      (.error .halt, {
        registry := p.registry
        guard := (p.guard.enter depth).2
        journal := p.journal.warnOnce .frameBudgetExceeded "tick"
          "render budget exceeded; interpretation halted until the next tick" }) := by
  rw [gate, run_bind_ok (Rendering.run_enter depth p), stops]
  rfl

theorem run_gate_depthExceeded {shown : Bool}
    (cuts : (p.guard.enter depth).1 = .depthExceeded shown) :
    (gate c depth).run.run p =
      (.ok (some (if shown then [.fallback c.label depth] else [])), {
        registry := p.registry
        guard := (p.guard.enter depth).2
        journal := p.journal.warnOnce .depthExceeded c.label
          (depthMessage depth (p.guard.enter depth).2.maxDepth) }) := by
  rw [gate, run_bind_ok (Rendering.run_enter depth p), cuts]
  rfl

/-- What the gate comes to unless it halts the pass: the component may proceed, or something stands
in its place. -/
inductive Gated (c : Component) (depth : Nat) (p : Pass) : Option (List Node) → Pass → Prop where
  | proceeds : (p.guard.enter depth).1 = .proceed →
      Gated c depth p none { p with guard := (p.guard.enter depth).2 }
  | cut (shown : Bool) : (p.guard.enter depth).1 = .depthExceeded shown →
      Gated c depth p (some (if shown then [.fallback c.label depth] else [])) {
        registry := p.registry
        guard := (p.guard.enter depth).2
        journal := p.journal.warnOnce .depthExceeded c.label
          (depthMessage depth (p.guard.enter depth).2.maxDepth) }

theorem gated_of_run {result : Option (List Node)} {q : Pass}
    (run : (gate c depth).run.run p = (.ok result, q)) : Gated c depth p result q := by
  cases decision : (p.guard.enter depth).1 with
  | proceed =>
      rw [run_gate_proceed decision] at run
      cases run
      exact .proceeds decision
  | halted =>
      rw [run_gate_halted decision] at run
      cases run
  | depthExceeded shown =>
      rw [run_gate_depthExceeded decision] at run
      cases run
      exact .cut shown decision

/-- A component without a conditional, other than a slot, is rendered itself. -/
theorem run_admitted (setting : Setting) (below : Renderer) (plain : c.conditional = none)
    (other : ¬ c.isSlot = true) (scope : Scope) (key : String) (site : Site) (p : Pass) :
    (admitted setting below c scope key site).run.run p =
      (itself setting below c scope key site).run.run p := by
  have shown : (Rendering.logged (c.outcome scope)).run.run p = (.ok .unconditional, p) := by
    rw [Component.outcome, plain]
    rfl
  rw [admitted, run_bind_ok shown]
  dsimp only
  rw [if_neg other]

end Render

end UiDoc
