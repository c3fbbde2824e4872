import UiDoc.Proofs.Rendering.Chains
import UiDoc.Proofs.Rendering.Freshness
import UiDoc.Proofs.Rendering.Tally

/-!
# What a conditional hides

A component with a conditional shows one of its branches or nothing.  So whatever else it declares,
apart from its id, can be replaced: two passes agree until one of them cuts such a component off,
which writes its type into the diagnostics.
-/

namespace UiDoc

/-! ## Replaced components -/

/-- One of the components of some content is replaced. -/
inductive Content.Replaced (replaced : Component → Component → Prop) :
    Content → Content → Prop where
  | node {c d : Component} : replaced c d → Replaced replaced (.node c) (.node d)
  | nodes {c d : Component} (front back : List Component) : replaced c d →
      Replaced replaced (.nodes (front ++ c :: back)) (.nodes (front ++ d :: back))

/-- Somewhere in a component, one with a conditional is replaced by one with the same id and the
same conditional. -/
inductive Component.Replaced : Component → Component → Prop where
  | here {c d : Component} : c.conditional ≠ none → d.id = c.id →
      d.conditional = c.conditional → Replaced c d
  | child {c : Component} {content other : Content} : c.children = some content →
      content.Replaced Replaced other → Replaced c { c with children := some other }
  | yes {c : Component} {k : Conditional} {content other : Content} : c.conditional = some k →
      k.yes = .content content → content.Replaced Replaced other →
      Replaced c { c with conditional := some { k with yes := .content other } }
  | no {c : Component} {k : Conditional} {content other : Content} : c.conditional = some k →
      k.no = .content content → content.Replaced Replaced other →
      Replaced c { c with conditional := some { k with no := .content other } }

theorem Component.Replaced.id_eq {c d : Component} (replaced : c.Replaced d) : d.id = c.id := by
  cases replaced with
  | here _ same _ => exact same
  | child | yes | no => rfl

theorem Component.Replaced.childKey {c d : Component} (replaced : c.Replaced d) (parent : String)
    (repeated : Bool) (index : Nat) :
    d.childKey parent repeated index = c.childKey parent repeated index := by
  simp only [Component.childKey, replaced.id_eq]

/-- What two components show instead of themselves: the same, or a branch in which a component is
replaced. -/
inductive Outcome.Replaced : Outcome → Outcome → Prop where
  | same (o : Outcome) : Replaced o o
  | branch {content other : Content} : content.Replaced Component.Replaced other →
      Replaced (.branch content) (.branch other)

theorem Content.Replaced.outcome {content other : Content}
    (replaced : content.Replaced Component.Replaced other) :
    Outcome.Replaced (Branch.outcome (.content content)) (Branch.outcome (.content other)) := by
  cases replaced with
  | node inner => exact .branch (.node inner)
  | nodes front back inner =>
      cases front with
      | nil => exact .branch (.nodes [] back inner)
      | cons first front => exact .branch (.nodes (first :: front) back inner)

/-- The condition is evaluated alike. -/
theorem Component.Replaced.outcome {c d : Component} (replaced : c.Replaced d) (scope : Scope)
    (j : Journal) :
    ((d.outcome scope).run j).2 = ((c.outcome scope).run j).2 ∧
      Outcome.Replaced ((c.outcome scope).run j).1 ((d.outcome scope).run j).1 := by
  have evaluated (k : Conditional) : (k.outcome scope).run j =
      (if ((Expr.holds scope k.condition).run j).1 then k.yes.outcome else k.no.outcome,
        ((Expr.holds scope k.condition).run j).2) := rfl
  cases replaced with
  | here _ _ same =>
      rw [Component.outcome, Component.outcome, same]
      exact ⟨rfl, .same _⟩
  | child => exact ⟨rfl, .same _⟩
  | yes declares shown inner =>
      simp only [Component.outcome, declares, evaluated, shown, true_and]
      split
      · exact inner.outcome
      · exact .same _
  | no declares shown inner =>
      simp only [Component.outcome, declares, evaluated, shown, true_and]
      split
      · exact .same _
      · exact inner.outcome

namespace Rendering

open Render (gate)

/-! ## Agreement until a component is cut off -/

/-- From passes whose entries are complete the acts do the same, unless the first one cuts a
component off.  Neither loses entries. -/
structure Agrees {α : Type} (x y : Rendering α) : Prop where
  told : Keeps Pass.Told x
  stays : ∀ site, Keeps (fun p => p.Told ∧ p.journal.Reports .depthExceeded site) x
  same : ∀ p, p.Told → y.run.run p = x.run.run p ∨
    ∃ site, (x.run.run p).2.journal.Reports .depthExceeded site

variable {files : Files} {α β : Type} {x y : Rendering α} {f g : α → Rendering β}

theorem Agrees.bind (first : Agrees x y) (second : ∀ a, Agrees (f a) (g a)) :
    Agrees (x >>= f) (y >>= g) where
  told := first.told.bind fun a => (second a).told
  stays site := (first.stays site).bind fun a => (second a).stays site
  same p told := by
    have toldNext := first.told p told
    rcases first.same p told with same | ⟨site, reports⟩
    · cases run : x.run.run p with
      | mk result q =>
          rw [run] at same toldNext
          cases result with
          | error h =>
              rw [run_bind_error run, run_bind_error same]
              exact .inl rfl
          | ok a =>
              rw [run_bind_ok run, run_bind_ok same]
              exact (second a).same q toldNext
    · refine .inr ⟨site, ?_⟩
      cases run : x.run.run p with
      | mk result q =>
          rw [run] at reports toldNext
          cases result with
          | error h =>
              rw [run_bind_error run]
              exact reports
          | ok a =>
              rw [run_bind_ok run]
              exact ((second a).stays site q ⟨toldNext, reports⟩).2

/-- What is the same and loses no entries agrees with itself. -/
theorem agrees_refl (told : Keeps Pass.Told x)
    (stays : ∀ site, Keeps (fun p => p.Told ∧ p.journal.Reports .depthExceeded site) x) :
    Agrees x x :=
  ⟨told, stays, fun _ _ => .inl rfl⟩

/-- To agree is kept by whatever rendering is composed of. -/
theorem agrees_congruence (files : Files) : Congruence files Agrees :=
  let told := told_congruence files
  let stays := reports_congruence files .depthExceeded
  { pure := fun a => agrees_refl (told.pure a) fun site => (stays site).pure a
    bind := .bind
    logged := fun steady => agrees_refl (told.logged steady) fun site => (stays site).logged steady
    resolve := fun kind => agrees_refl (told.resolve kind) fun site => (stays site).resolve kind
    warnDeprecated := fun kind =>
      agrees_refl (told.warnDeprecated kind) fun site => (stays site).warnDeprecated kind
    gate := fun c depth =>
      agrees_refl (told.gate c depth) fun site => (stays site).gate c depth }

/-- The guard decides without looking at a component, and what it cuts off is recorded. -/
theorem agrees_gate (files : Files) (c d : Component) (depth : Nat) :
    Agrees (gate c depth) (gate d depth) := by
  refine { (agrees_congruence files).gate c depth with same := fun p told => ?_ }
  cases decision : (p.guard.enter depth).1 with
  | proceed =>
      rw [Render.run_gate_proceed decision, Render.run_gate_proceed decision]
      exact .inl rfl
  | halted =>
      rw [Render.run_gate_halted decision, Render.run_gate_halted decision]
      exact .inl rfl
  | depthExceeded shown =>
      refine .inr ⟨c.label, ?_⟩
      rw [Render.run_gate_depthExceeded decision]
      exact told.complete.reports_warnOnce .depthExceeded c.label _

/-- The same acts, apart from what follows from their results. -/
theorem agrees_logged_bind {act actOther : Logged α} (steady : act.Steady)
    (written : ∀ j, (actOther.run j).2 = (act.run j).2)
    (next : ∀ j, Agrees (f (act.run j).1) (g (actOther.run j).1)) :
    Agrees (logged act >>= f) (logged actOther >>= g) where
  told p told := by
    rw [run_bind_ok (run_logged act p)]
    exact (next p.journal).told _ ((told_congruence {}).logged steady p told)
  stays site p has := by
    rw [run_bind_ok (run_logged act p)]
    exact (next p.journal).stays site _
      ((reports_congruence {} .depthExceeded site).logged steady p has)
  same p told := by
    rw [run_bind_ok (run_logged act p), run_bind_ok (run_logged actOther p), written]
    exact (next p.journal).same _ ((told_congruence {}).logged steady p told)

end Rendering

namespace Render

open Rendering (Agrees agrees_congruence agrees_gate agrees_logged_bind)

variable {setting : Setting} {below : Renderer} {c d : Component} {site : Site} {key parent : String}

/-- What is rendered inside agrees with itself, and with what is rendered for a replacement. -/
structure Blind (below : Renderer) : Prop where
  itself : ∀ c scope key site, Agrees (below c scope key site) (below c scope key site)
  replaced : ∀ {c d : Component}, c.Replaced d → ∀ scope key site,
    Agrees (below c scope key site) (below d scope key site)

namespace Blind

theorem components (blind : Blind below) (replaced : c.Replaced d) (front back : List Component)
    (scope : Scope) (parent : String) (repeated : Bool) (site : Site) (index : Nat) :
    Agrees (components below scope parent repeated site index (front ++ c :: back))
      (Render.components below scope parent repeated site index (front ++ d :: back)) := by
  let setting : Setting := ⟨{}, false⟩
  have rel : Rendering.Congruence setting.files Agrees := agrees_congruence setting.files
  induction front generalizing index with
  | nil =>
      have others := rel.components (fun c scope key => blind.itself c scope key site) scope parent
        repeated (index + 1) back
      simp only [List.nil_append, Render.components, replaced.childKey]
      exact (blind.replaced replaced _ _ _).bind fun _ => others.bind fun _ => rel.pure _
  | cons first front ih =>
      exact (blind.itself first _ _ _).bind fun _ => (ih (index + 1)).bind fun _ => rel.pure _

variable {content other : Content}

theorem branch (blind : Blind below) (replaced : content.Replaced Component.Replaced other)
    (scope : Scope) (key : String) (site : Site) :
    Agrees (branch below scope key site content) (Render.branch below scope key site other) := by
  cases replaced with
  | node inner =>
      simp only [Render.branch, inner.id_eq]
      exact blind.replaced inner _ _ _
  | nodes front back inner => exact blind.components inner front back _ _ _ _ _

theorem childList (blind : Blind below) (declares : c.children = some content)
    (replaced : content.Replaced Component.Replaced other) (scope : Scope) (parent : String)
    (repeated : Bool) (site : Site) :
    Agrees (childList below c scope parent repeated site)
      (Render.childList below { c with children := some other } scope parent repeated site) := by
  simp only [Render.childList, declares]
  cases replaced with
  | node inner => exact blind.components inner [] [] _ _ _ _ _
  | nodes front back inner => exact blind.components inner front back _ _ _ _ _

theorem slots (blind : Blind below) (declares : c.children = some content)
    (replaced : content.Replaced Component.Replaced other) (scope : Scope) (key : String)
    (site : Site) (list : List Slot) :
    Agrees (slots below c scope key site list)
      (Render.slots below { c with children := some other } scope key site list) := by
  have rel : Rendering.Congruence {} Agrees := agrees_congruence {}
  induction list with
  | nil => exact rel.pure _
  | cons slot rest ih =>
      unfold Render.slots
      dsimp only
      split
      · exact (blind.childList declares replaced _ _ _ _).bind fun _ => ih.bind fun _ => rel.pure _
      · exact (rel.pure _).bind fun _ => ih.bind fun _ => rel.pure _

theorem children (blind : Blind below) (declares : c.children = some content)
    (replaced : content.Replaced Component.Replaced other) (scope : Scope) (key : String)
    (site : Site) :
    Agrees (children setting below c scope key site)
      (Render.children setting below { c with children := some other } scope key site) := by
  simp only [Render.children]
  split
  · exact blind.childList declares replaced _ _ _ _
  · exact ((agrees_congruence {}).logged (Loop.steady_expand _ _ _)).bind fun _ =>
      blind.slots declares replaced _ _ _ _

theorem composite (blind : Blind below) (declares : c.children = some content)
    (replaced : content.Replaced Component.Replaced other) (name : String) (definition : Component)
    (props : Record Json) (handlers : List BoundHandler) (scope : Scope) (key : String)
    (site : Site) :
    Agrees (composite setting below c name definition props handlers scope key site)
      (Render.composite setting below { c with children := some other } name definition props
        handlers scope key site) := by
  have rel : Rendering.Congruence {} Agrees := agrees_congruence {}
  simp only [Render.composite]
  split
  · exact (rel.logged (Logged.steady_warnOnce _ _ rfl)).bind fun _ => rel.pure _
  · exact (blind.children declares replaced _ _ _).bind fun _ =>
      (blind.itself definition _ _ _).bind fun _ => rel.pure _

theorem typed (blind : Blind below) (declares : c.children = some content)
    (replaced : content.Replaced Component.Replaced other) (props : Record Json)
    (handlers : List BoundHandler) (scope : Scope) (key : String) (site : Site) :
    Agrees (typed setting below c props handlers scope key site)
      (Render.typed setting below { c with children := some other } props handlers scope key
        site) := by
  have rel : Rendering.Congruence setting.files Agrees := agrees_congruence setting.files
  refine (rel.resolve c.kind).bind fun found => ?_
  cases found with
  | none => exact (rel.logged (Logged.steady_warnOnce _ _ rfl)).bind fun _ => rel.pure _
  | some renderable =>
      refine (rel.warnDeprecated c.kind).bind fun _ => ?_
      cases renderable with
      | composite name definition => exact blind.composite declares replaced _ _ _ _ _ _ _
      | element tag tier | icon name =>
          exact (blind.children declares replaced _ _ _).bind fun _ => rel.pure _

/-- A component whose children are replaced is rendered itself with the same properties. -/
theorem itself_of_children (blind : Blind below) (declares : c.children = some content)
    (replaced : content.Replaced Component.Replaced other) (scope : Scope) (key : String)
    (site : Site) :
    Agrees (Render.itself setting below c scope key site)
      (Render.itself setting below { c with children := some other } scope key site) := by
  have rel : Rendering.Congruence setting.files Agrees := agrees_congruence setting.files
  refine (rel.logged (c.steady_resolveProps setting.devMode scope)).bind fun props => ?_
  split
  · exact (blind.children declares replaced _ _ _).bind fun _ => rel.pure _
  · exact blind.typed declares replaced _ _ _ _ _

theorem admitted (blind : Blind below) (replaced : c.Replaced d) (scope : Scope) (key : String)
    (site : Site) :
    Agrees (admitted setting below c scope key site)
      (Render.admitted setting below d scope key site) := by
  have rel : Rendering.Congruence setting.files Agrees := agrees_congruence setting.files
  refine agrees_logged_bind (c.steady_outcome scope) (fun j => (replaced.outcome scope j).1)
    fun j => ?_
  have declared := c.outcome_of scope j
  have alike := (replaced.outcome scope j).2
  generalize ((c.outcome scope).run j).1 = shown at declared alike
  generalize ((d.outcome scope).run j).1 = shownOther at alike
  cases alike with
  | branch inner => exact blind.branch inner _ _ _
  | same =>
      cases shown with
      | empty reason => exact rel.pure _
      | branch content =>
          exact rel.composes.branch (fun d _ scope key => blind.itself d scope key _) _ _
      | unconditional =>
          have plain : c.conditional = none := declared
          cases replaced with
          | here conditional => exact absurd plain conditional
          | @child _ content other declares inner =>
              have sameKind : { c with children := some other }.isSlot = c.isSlot := rfl
              simp only [sameKind]
              split
              · exact rel.pure _
              · exact blind.itself_of_children declares inner scope key site
          | yes declares | no declares => exact nomatch plain.symm.trans declares

/-- What does not show inside of a component does not show at the component. -/
theorem component (blind : Blind below) : Blind (component setting below) where
  itself c scope key _ := (agrees_congruence setting.files).component
    (fun deeper _ c scope key => blind.itself c scope key deeper) c scope key
  replaced {c d} replaced scope key site := by
    rw [component_eq, component_eq]
    refine (agrees_gate setting.files c d site.depth).bind fun cut => ?_
    cases cut with
    | some nodes => exact (agrees_congruence {}).pure _
    | none => exact blind.admitted replaced scope key site

end Blind

theorem blind_upTo (setting : Setting) (levels : Nat) : Blind (upTo setting levels) := by
  induction levels with
  | zero =>
      have nothing : Blind fun _ _ _ _ => pure [] :=
        ⟨fun _ _ _ _ => (agrees_congruence {}).pure _, fun _ _ _ _ => (agrees_congruence {}).pure _⟩
      exact nothing.component
  | succ levels ih => exact ih.component

end Render

namespace Interpreter

variable {files : Files} {i j : Interpreter} {request : Request} {other : Component}

/-- In a pass that cuts nothing off, a component with a conditional can be replaced by any with the
same id and the same conditional.  The output stays the same, with any interpreter that has the same
configuration and the same registrations, whatever it has done before. -/
theorem render_replaced (reached : i.Reached files) (reachedOther : j.Reached files)
    (constant : i.registry.Constant) (alike : Registry.Alike files i.registry j.registry)
    (same : j.config = i.config) (cadence : i.config.tick = .perRender)
    (replaced : request.root.Replaced other) (now later : Nat)
    (uncut : ∀ entry ∈ (i.render files now request).1.diagnostics.entries,
      entry.kind ≠ .depthExceeded) :
    (j.render files later { request with root := other }).1 = (i.render files now request).1 := by
  have intact := reached.intact
  rw [← intact.render_eq reachedOther.intact constant alike same.symm cadence now later]
  let setting : Setting := ⟨files, i.config.devMode⟩
  have blind := Render.blind_upTo setting (i.guard.maxDepth + 1)
  have agrees : Rendering.Agrees (i.rendering files request)
      (i.rendering files { request with root := other }) := by
    simp only [rendering, Request.key, replaced.id_eq]
    exact blind.replaced replaced _ _ _
  have told : (i.beginPass now).Told := ⟨intact.scripts, Diagnostics.complete_empty⟩
  cases run : (i.rendering files request).run.run (i.beginPass now) with
  | mk result p =>
      rw [render_of_run run] at uncut ⊢
      rcases agrees.same _ told with runOther | ⟨site, entry, member, kind, -⟩
      · rw [run] at runOther
        rw [render_of_run runOther]
      · rw [run] at member
        rw [Output.diagnostics_ofResult] at uncut
        exact absurd kind (uncut entry member)

/-- A conditional among the children of a list item becomes an unknown type with a loop over
nothing, and is rendered by an interpreter that has rendered before. -/
theorem render_replaced_unknown :
    let greeting : Branch := .content (.text "Hello")
    let choice : Conditional := { condition := "open", yes := greeting, no := .absent }
    let shown : Component := { kind := "p", conditional := some choice }
    let hidden : Component := {
      kind := "Unknown", conditional := some choice, loop := some { source := .path "nothing" } }
    let root : Component := { kind := "li", children := some (.nodes [{ kind := "p" }, shown]) }
    let other : Component := { kind := "li", children := some (.nodes [{ kind := "p" }, hidden]) }
    let request : Request := { root, data := .obj [("open", .bool true)] }
    let i : Interpreter := .ofConfig { tick := .perRender } .builtin 0
    let j := (i.render {} 0 request).2
    root.Replaced other ∧ (i.render {} 0 request).1.diagnostics.entries = [] ∧
      (j.render {} 1 { request with root := other }).1 = (i.render {} 0 request).1 := by
  intro greeting choice shown hidden root other request i j
  have reached : i.Reached {} := .made _ 0 ⟨.builtin, [], .builtin, rfl⟩
  have constant : i.registry.Constant := fun path m found => nomatch found
  have alike : Registry.Alike {} i.registry j.registry := reached.intact.registry_render 0 request
  have here : shown.Replaced hidden := .here nofun rfl rfl
  have replaced : root.Replaced other := .child rfl (.nodes [{ kind := "p" }] [] here)
  have quiet : (i.render {} 0 request).1.diagnostics.entries = [] := by decide +kernel
  refine ⟨replaced, quiet, render_replaced reached (.rendered 0 request reached) constant alike rfl
    rfl replaced 0 1 ?_⟩
  rw [quiet]
  exact nofun

end Interpreter

end UiDoc
