import UiDoc.Proofs.Rendering.Invariants
import UiDoc.Proofs.Rendering.NodeCount
import UiDoc.Proofs.Validation.Silence

/-!
# What a validator foresees

If a validator has nothing to say about the expressions and the types of a document, no pass has
anything to say about them either, whatever the document is rendered with.
-/

namespace UiDoc

open Registry (Alike)

/-- Whether a kind of entry is about an expression or a type. -/
def DiagnosticKind.isForeseen : DiagnosticKind → Bool
  | unsupportedExpression | unknownComponentType | deprecatedComponent => true
  | _ => false

/-- The act writes nothing about expressions and types. -/
def Logged.Spares {α : Type} (act : Logged α) : Prop :=
  act.Confined fun kind => kind.isForeseen = false

/-! ## What has no need to be allowed -/

section

variable {kinds : DiagnosticKind → Prop}

theorem Expr.allowed_of_supported {text : String} (supported : isSupported text = true) :
    Allowed kinds text := by
  intro unsupported
  rw [supported] at unsupported
  cases unsupported

theorem Template.Supported.allowed {template : String} (supported : Supported template) :
    Allowed kinds template :=
  fun expression member => Expr.allowed_of_supported (supported expression member)

theorem Binding.allowed_of_plain {b : Binding} (plain : b.transform? = none) : b.Allowed kinds :=
  fun transforms => absurd plain transforms

end

/-! ## Components and passes -/

/-- A component that a pass says nothing about: it is foreseen, none of its bindings has a
transform, and its type stands for no definition. -/
structure Component.Unremarkable (files : Files) (s : Registry) (c : Component) : Prop
    extends c.Foreseen files s where
  plain : ∀ b ∈ c.allBindings, b.transform? = none
  elementary : ∀ name definition,
    ((Registry.resolve files c.kind).run s).1 ≠ some (.composite name definition)

/-- A pass with these registrations in which nothing has been said about expressions and types. -/
structure Pass.Spared (files : Files) (s : Registry) (p : Pass) : Prop where
  sound : p.Sound files
  registry : Alike files s p.registry
  free : p.journal.Free (·.isForeseen = true)

namespace Rendering

open Render (gate)

variable {files : Files} {s : Registry} {α : Type}

theorem keeps_logged {act : Logged α} (spares : act.Spares) :
    Keeps (Pass.Spared files s) (logged act) := by
  intro p spared
  obtain ⟨result, notes, writes, harmless⟩ := spares
  obtain ⟨scripts, kept, run⟩ := writes p.journal spared.sound.scripts
  rw [run_logged, run]
  exact ⟨⟨spared.sound.coherent, kept⟩, spared.registry, spared.free.writeAll fun note member => by
    simp [harmless note member]⟩

/-- What is known of a result, whatever has been written before, may be used in what follows. -/
theorem keeps_logged_bind {β : Type} {act : Logged β} {next : β → Rendering α} {known : β → Prop}
    (spares : act.Spares) (fit : ∀ j, known (act.run j).1)
    (second : ∀ b, known b → Keeps (Pass.Spared files s) (next b)) :
    Keeps (Pass.Spared files s) (logged act >>= next) := by
  intro p spared
  have sparedNext := keeps_logged spares p spared
  rw [run_bind_ok (run_logged act p)]
  exact second _ (fit p.journal) _ sparedNext

theorem keeps_gate (c : Component) (depth : Nat) : Keeps (Pass.Spared files s) (gate c depth) := by
  intro p spared
  obtain ⟨result, notes, run, limits⟩ := Render.run_gate c depth p
  rw [run]
  refine ⟨⟨spared.sound.coherent, spared.sound.scripts⟩, spared.registry,
    spared.free.writeAll fun note member foreseen => ?_⟩
  have limit := limits note member
  cases kind : note.kind <;> simp_all [DiagnosticKind.isLimit, DiagnosticKind.isForeseen]

/-- Whatever has been found out before, a type stands for the same. -/
theorem keeps_resolve_bind (constant : s.Constant) (coherent : Registry.Coherent files s)
    {kind : String} {next : Option Renderable → Rendering α}
    (second : Keeps (Pass.Spared files s) (next ((Registry.resolve files kind).run s).1)) :
    Keeps (Pass.Spared files s) (resolve files kind >>= next) := by
  intro p spared
  have answer := Registry.resolve_alike spared.registry constant coherent spared.sound.coherent kind
  obtain ⟨found, asked, run, later, coherentLater, -⟩ :=
    Registry.resolve_run spared.sound.coherent kind
  rw [run_bind_ok (run_resolve files kind p), ← answer, run]
  exact second _ ⟨⟨coherentLater, spared.sound.scripts⟩, spared.registry.trans later.toAlike,
    spared.free⟩

theorem keeps_warnDeprecated {kind : String}
    (current : (s.entry? kind).filter RegistryEntry.isDeprecated = none) :
    Keeps (Pass.Spared files s) (Render.warnDeprecated kind) := by
  intro p spared
  rw [Render.run_warnDeprecated, Render.deprecation, ← spared.registry.entry?, current]
  exact spared

end Rendering

namespace Render

open Rendering (Keeps keeps_logged keeps_logged_bind keeps_gate keeps_resolve_bind
  keeps_warnDeprecated)

variable {setting : Setting} {s : Registry} {below : Renderer}

theorem keeps_pure {α : Type} (holds : Pass → Prop) (a : α) : Keeps holds (pure a) :=
  fun _ kept => kept

/-- Everything in a component is unremarkable. -/
def Calm (files : Files) (s : Registry) (c : Component) : Prop :=
  ∀ d, c.Contains d → d.Unremarkable files s

theorem Calm.part {files : Files} {c d : Component} (calm : Calm files s c) (part : d ∈ c.parts) :
    Calm files s d :=
  fun e contains => calm e (.inside part contains)

/-- The renderer says nothing about expressions and types. -/
def Calms (files : Files) (s : Registry) (below : Renderer) : Prop :=
  ∀ c, Calm files s c → ∀ scope key site, Keeps (Pass.Spared files s) (below c scope key site)

theorem Calms.components (inner : Calms setting.files s below) {list : List Component}
    (calm : ∀ c ∈ list, Calm setting.files s c) (scope : Scope) (parent : String) (repeated : Bool)
    (site : Site) (index : Nat) :
    Keeps (Pass.Spared setting.files s)
      (components below scope parent repeated site index list) := by
  induction list generalizing index with
  | nil => exact keeps_pure _ _
  | cons c rest ih =>
      have calm := List.forall_mem_cons.1 calm
      exact .bind (inner c calm.1 _ _ _) fun _ => .bind (ih calm.2 _) fun _ => keeps_pure _ _

theorem keeps_text {template : String} (supported : Template.Supported template) (scope : Scope) :
    Keeps (Pass.Spared setting.files s) (text scope template) :=
  .bind (keeps_logged (supported.allowed.interpolate scope)) fun _ => keeps_pure _ _

/-- What a component shows in place of itself or of its children. -/
structure CalmContent (files : Files) (s : Registry) (content : Content) : Prop where
  texts : ∀ template ∈ content.texts, Template.Supported template
  components : ∀ c ∈ content.components, Calm files s c

theorem Calms.branch (inner : Calms setting.files s below) {content : Content}
    (calm : CalmContent setting.files s content) (scope : Scope) (key : String) (site : Site) :
    Keeps (Pass.Spared setting.files s) (branch below scope key site content) := by
  cases content with
  | text template => exact keeps_text (calm.texts template (List.mem_singleton_self _)) scope
  | node c => exact inner c (calm.components c (List.mem_singleton_self _)) _ _ _
  | nodes list => exact inner.components calm.components _ _ _ _ _

theorem Calms.childList (inner : Calms setting.files s below) {c : Component}
    (calm : ∀ content, c.children = some content → CalmContent setting.files s content)
    (scope : Scope) (parent : String) (repeated : Bool) (site : Site) :
    Keeps (Pass.Spared setting.files s) (childList below c scope parent repeated site) := by
  rw [Render.childList]
  split
  · exact keeps_pure _ _
  · rename_i template declares
    exact keeps_text ((calm _ declares).texts template (List.mem_singleton_self _)) scope
  · rename_i content _ declares
    exact inner.components (calm content declares).components _ _ _ _ _

theorem Calms.slots (inner : Calms setting.files s below) {c : Component}
    (calm : ∀ content, c.children = some content → CalmContent setting.files s content)
    (scope : Scope) (key : String) (site : Site) (list : List Slot) :
    Keeps (Pass.Spared setting.files s) (slots below c scope key site list) := by
  induction list with
  | nil => exact keeps_pure _ _
  | cons slot rest ih =>
      unfold Render.slots
      dsimp only
      split
      · exact .bind (inner.childList calm _ _ _ _) fun _ => .bind ih fun _ => keeps_pure _ _
      · exact .bind (keeps_pure _ _) fun _ => .bind ih fun _ => keeps_pure _ _

variable {c : Component}

/-- The children of a calm component are calm. -/
theorem Calm.children {files : Files} (calm : Calm files s c) {content : Content}
    (declares : c.children = some content) : CalmContent files s content where
  texts template member := by
    apply (calm c (.self c)).template
    exact List.mem_append_right _ (by rw [declares]; exact member)
  components d member := by
    apply calm.part
    exact List.mem_append_right _ (by rw [Component.childNodes, declares]; exact member)

theorem Calms.children (inner : Calms setting.files s below) (calm : Calm setting.files s c)
    (scope : Scope) (key : String) (site : Site) :
    Keeps (Pass.Spared setting.files s) (children setting below c scope key site) := by
  have calmChildren : ∀ content, c.children = some content → CalmContent setting.files s content :=
    fun _ => calm.children
  rw [Render.children]
  split
  · exact inner.childList calmChildren _ _ _ _
  · rename_i l repeats
    have unremarkable := calm c (.self c)
    have spares : (l.expand setting.devMode scope).Spares := by
      apply Loop.confined_expand
      · rfl
      · rfl
      · intro condition declares
        apply Expr.allowed_of_supported
        apply unremarkable.supported
        exact List.mem_append_left _ (by simp [Component.conditions, repeats, declares])
      · apply Binding.allowed_of_plain
        exact unremarkable.plain _ (by simp [Component.allBindings, repeats])
    apply Keeps.bind (keeps_logged spares)
    exact fun _ => inner.slots calmChildren _ _ _ _

/-- A type that is offered and stands for no definition is rendered calmly. -/
theorem Calms.typed (inner : Calms setting.files s below) (constant : s.Constant)
    (coherent : Registry.Coherent setting.files s) (calm : Calm setting.files s c)
    (offered : s.Offers setting.files c.kind) (props : Record Json) (handlers : List BoundHandler)
    (scope : Scope) (key : String) (site : Site) :
    Keeps (Pass.Spared setting.files s) (typed setting below c props handlers scope key site) := by
  apply keeps_resolve_bind constant coherent
  obtain ⟨⟨renderable, known⟩, current⟩ := offered
  rw [known]
  apply Keeps.bind (keeps_warnDeprecated current)
  intro _
  cases renderable with
  | composite name definition => exact absurd known ((calm c (.self c)).elementary name definition)
  | element tag tier | icon name =>
      exact .bind (inner.children calm _ _ _) fun _ => keeps_pure _ _

theorem Calms.itself (inner : Calms setting.files s below) (constant : s.Constant)
    (coherent : Registry.Coherent setting.files s) (calm : Calm setting.files s c)
    (other : ¬ c.isSlot = true) (scope : Scope) (key : String) (site : Site) :
    Keeps (Pass.Spared setting.files s) (itself setting below c scope key site) := by
  have unremarkable := calm c (.self c)
  have spares : (c.resolveProps setting.devMode scope).Spares := by
    apply Component.confined_resolveProps
    · rfl
    · exact fun template member => (unremarkable.template template member).allowed
    · exact fun b member => Binding.allowed_of_plain (unremarkable.plain b member)
  apply Keeps.bind (keeps_logged spares)
  intro props
  split
  · exact .bind (inner.children calm _ _ _) fun _ => keeps_pure _ _
  · rename_i named
    rcases unremarkable.kind with unnamed | slot | offered
    · exact absurd unnamed named
    · exact absurd slot other
    · exact inner.typed constant coherent calm offered _ _ _ _ _

/-- The branch that a calm component shows is calm. -/
theorem Calm.branch {files : Files} (calm : Calm files s c) {content : Content}
    (shown : (Outcome.branch content).Of c) : CalmContent files s content := by
  constructor
  · intro template member
    obtain ⟨conditional, declares, side⟩ := shown
    apply (calm c (.self c)).template
    refine List.mem_append_left _ (List.mem_append_right _ ?_)
    rw [declares]
    rcases side with yes | no
    · exact List.mem_append_left _ (by rw [yes]; exact member)
    · exact List.mem_append_right _ (by rw [no]; exact member)
  · exact fun d member => calm.part (shown.mem_parts member)

theorem Calms.admitted (inner : Calms setting.files s below) (constant : s.Constant)
    (coherent : Registry.Coherent setting.files s) (calm : Calm setting.files s c) (scope : Scope)
    (key : String) (site : Site) :
    Keeps (Pass.Spared setting.files s) (admitted setting below c scope key site) := by
  have spares : (c.outcome scope).Spares := by
    apply Component.confined_outcome
    intro condition member
    apply Expr.allowed_of_supported
    exact (calm c (.self c)).supported condition (List.mem_append_left _ member)
  apply keeps_logged_bind spares (c.outcome_of scope)
  intro outcome shown
  cases outcome with
  | empty reason => exact keeps_pure _ _
  | branch content => exact inner.branch (calm.branch shown) _ _ _
  | unconditional =>
      dsimp only
      split
      · exact keeps_pure _ _
      · rename_i other
        exact inner.itself constant coherent calm other _ _ _

theorem Calms.component (inner : Calms setting.files s below) (constant : s.Constant)
    (coherent : Registry.Coherent setting.files s) :
    Calms setting.files s (component setting below) := by
  intro c calm scope key site
  rw [component_eq]
  apply Keeps.bind (keeps_gate c site.depth)
  intro cut
  cases cut with
  | some nodes => exact keeps_pure _ _
  | none => exact inner.admitted constant coherent calm scope key site

theorem calms_upTo (constant : s.Constant) (coherent : Registry.Coherent setting.files s)
    (levels : Nat) : Calms setting.files s (upTo setting levels) := by
  induction levels with
  | zero =>
      have nothing : Calms setting.files s fun _ _ _ _ => pure [] := fun _ _ _ _ _ => keeps_pure _ _
      exact nothing.component constant coherent
  | succ levels ih => exact ih.component constant coherent

end Render

namespace Interpreter

variable {files : Files} {i : Interpreter} {s : Registry}

/-- If the report of a document is valid and mentions neither expressions nor types, then no pass
records anything about these: not if no binding has a transform, and no type stands for a
definition. -/
theorem render_of_valid (reached : i.Reached files) (constant : s.Constant)
    (reachedRegistry : s.Reached files) (alike : Alike files s i.registry) (now : Nat)
    (request : Request)
    (plain : ∀ c, request.root.Contains c → ∀ b ∈ c.allBindings, b.transform? = none)
    (elementary : ∀ c, request.root.Contains c → ∀ name definition,
      ((Registry.resolve files c.kind).run s).1 ≠ some (.composite name definition))
    (valid : (Report.ofDocument files (some s) request.root).valid = true)
    (unmentioned : ∀ issue ∈ (Report.ofDocument files (some s) request.root).warnings,
      issue.rule ∉ [.unsupportedExpression, .unknownType, .deprecated]) :
    ∀ entry ∈ (i.render files now request).1.diagnostics.entries,
      entry.kind ∉ [.unsupportedExpression, .unknownComponentType, .deprecatedComponent] := by
  let setting : Setting := ⟨files, i.config.devMode⟩
  have coherent : Registry.Coherent setting.files s := reachedRegistry.coherent
  have calm : Render.Calm setting.files s request.root := fun c contains => {
    Report.foreseen_of_valid constant coherent valid unmentioned contains with
    plain := plain c contains
    elementary := elementary c contains }
  have calms : Render.Calms setting.files s (Render.upTo setting (i.guard.maxDepth + 1)) :=
    Render.calms_upTo constant coherent _
  have begins : (i.beginPass now).Spared files s :=
    ⟨reached.sound.beginPass now, alike, Diagnostics.free_empty _⟩
  have spared := calms request.root calm request.scope request.key {} _ begins
  have output : (i.render files now request).1.diagnostics =
      ((i.rendering files request).run.run (i.beginPass now)).2.journal.toDiagnostics :=
    Output.diagnostics_ofResult _ _
  rw [output]
  intro entry member mentioned
  apply spared.free entry (Diagnostics.mem_entries.1 member)
  simp only [List.mem_cons, List.not_mem_nil, or_false] at mentioned
  rcases mentioned with kind | kind | kind <;> rw [kind] <;> rfl

/-- A greeting, repeated for the items of something that is no array. -/
theorem render_of_valid_greeting :
    let greeting : Component := {
      kind := "p"
      props := [("title", .str " \x7b\x7bname\x7d\x7d ")]
      loop := some { source := .path "name" }
      children := some (.text "Hello \x7b\x7bname\x7d\x7d") }
    let root : Component := { kind := "div", children := some (.nodes [greeting]) }
    let request : Request := { root, data := .obj [("name", .str "you")] }
    let i : Interpreter := .ofConfig {} .builtin 0
    (i.render {} 0 request).1.diagnostics.entries.length = 1 ∧
      ∀ entry ∈ (i.render {} 0 request).1.diagnostics.entries,
        entry.kind ∉ [.unsupportedExpression, .unknownComponentType, .deprecatedComponent] := by
  intro greeting root request i
  have opening : Registry.Reached {} .builtin := ⟨.builtin, [], .builtin, rfl⟩
  have constant : Registry.builtin.Constant := fun path m found => nomatch found
  have known : ∀ c, root.Contains c → c = root ∨ c = greeting := by
    intro c contains
    cases contains with
    | self => exact .inl rfl
    | inside part contains =>
        cases List.mem_singleton.1 part
        cases contains with
        | self => exact .inr rfl
        | inside part _ => cases part
  have plain : ∀ c, root.Contains c → ∀ b ∈ c.allBindings, b.transform? = none := by
    intro c contains
    rcases known c contains with rfl | rfl <;> decide
  have elementary : ∀ c, root.Contains c → ∀ name definition,
      ((Registry.resolve {} c.kind).run .builtin).1 ≠ some (.composite name definition) := by
    intro c contains name definition same
    have tier : ((Registry.resolve {} c.kind).run .builtin).1.map Renderable.tier =
        some .primitive := by
      rcases known c contains with rfl | rfl <;> decide +kernel
    rw [same] at tier
    cases tier
  have quiet := render_of_valid (.made {} 0 opening) constant opening (.refl {} .builtin) 0 request
    plain elementary (by decide +kernel) (by decide +kernel)
  exact ⟨by decide +kernel, quiet⟩

end Interpreter

end UiDoc
