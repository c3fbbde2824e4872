import UiDoc.Flow.Branching
import UiDoc.Flow.Repetition
import UiDoc.Proofs.Document.Contents
import UiDoc.Proofs.Template
import UiDoc.Render.Props

/-!
# What the acts of components are composed of

Conditions, templates, bindings and loops make warnings, run scripts, and record undefined bindings
while a document is being developed; otherwise they only put such acts one after the other.  So a
relation between acts that sequences keep is looked at for these three acts only, even if the two
sides differ in whether the document is being developed.
-/

namespace UiDoc

/-! ## What may be warned about -/

namespace Expr

/-- It may be written about a text that is no expression. -/
def Allowed (kinds : DiagnosticKind → Prop) (text : String) : Prop :=
  isSupported text = false → kinds .unsupportedExpression

theorem isSupported_of_eval? {scope : Scope} {text : String} (unknown : eval? scope text = none) :
    isSupported text = false := by
  rw [eval?, Option.map_eq_none_iff] at unknown
  rw [isSupported, unknown, Option.isSome_none]

end Expr

/-- It may be written about the placeholders of a template. -/
def Template.Allowed (kinds : DiagnosticKind → Prop) (template : String) : Prop :=
  ∀ expression ∈ expressions template, Expr.Allowed kinds expression

/-- It may be written about the transform of a binding. -/
def Binding.Allowed (kinds : DiagnosticKind → Prop) (b : Binding) : Prop :=
  b.transform? ≠ none → kinds .unsupportedExpression

/-! ## Relations that are kept -/

namespace Logged

/-- Records an undefined binding while a document is being developed. -/
def recordUndefined (devMode : Bool) (site message : String) : Logged Unit :=
  if devMode then record .undefinedBinding site message else pure ()

/-- The relation is kept by whatever acts are composed of, where warnings of some kinds are made. -/
structure Composes (kinds : DiagnosticKind → Prop)
    (related : {α : Type} → Logged α → Logged α → Prop) : Prop where
  pure {α : Type} (a : α) : related (pure a) (pure a)
  bind {α β : Type} {x y : Logged α} {f g : α → Logged β} :
    related x y → (∀ a, related (f a) (g a)) → related (x >>= f) (y >>= g)
  warnOnce {kind : DiagnosticKind} (site message : String) : kinds kind →
    related (Logged.warnOnce kind site message) (Logged.warnOnce kind site message)
  script (source : String) (scope : Scope) (args : List Value) :
    related (Logged.script source scope args) (Logged.script source scope args)

/-- The relation is kept by the records of undefined bindings on both sides. -/
def Develops (devMode other : Bool) (related : {α : Type} → Logged α → Logged α → Prop) : Prop :=
  ∀ site message, related (recordUndefined devMode site message)
    (recordUndefined other site message)

end Logged

/-- The value of a binding is recorded if it is undefined. -/
theorem Binding.resolve_eq (devMode : Bool) (scope : Scope) (b : Binding) :
    b.resolve devMode scope = (do
      let v ← b.value scope
      if v.isNone then
        Logged.recordUndefined devMode b.describe (undefinedMessage scope)
      pure v) := by
  refine congrArg _ (funext fun v => ?_)
  cases v <;> cases devMode <;> rfl

namespace Logged.Composes

variable {kinds : DiagnosticKind → Prop} {related : {α : Type} → Logged α → Logged α → Prop}

/-! ## Expressions and templates -/

theorem holds (rel : Composes kinds related) {condition : String}
    (allowed : Expr.Allowed kinds condition) (scope : Scope) :
    related (Expr.holds scope condition) (Expr.holds scope condition) := by
  rw [Expr.holds]
  split
  · exact rel.pure _
  · rename_i unknown
    have unsupported := allowed (Expr.isSupported_of_eval? unknown)
    exact rel.bind (rel.warnOnce _ _ unsupported) fun _ => rel.pure _

theorem evalOrUndefined (rel : Composes kinds related) {text : String}
    (allowed : Expr.Allowed kinds text) (scope : Scope) :
    related (Expr.evalOrUndefined scope text) (Expr.evalOrUndefined scope text) := by
  rw [Expr.evalOrUndefined]
  split
  · exact rel.pure _
  · rename_i unknown
    have unsupported := allowed (Expr.isSupported_of_eval? unknown)
    exact rel.bind (rel.warnOnce _ _ unsupported) fun _ => rel.pure _

theorem fillPieces (rel : Composes kinds related) {parts : List Template.Piece} (scope : Scope)
    (allowed : ∀ expression ∈ Template.holes parts, Expr.Allowed kinds expression) :
    related (Template.fillPieces scope parts) (Template.fillPieces scope parts) := by
  induction parts with
  | nil => exact rel.pure _
  | cons piece rest ih =>
      cases piece with
      | char c => exact rel.bind (rel.pure _) fun _ => rel.bind (ih allowed) fun _ => rel.pure _
      | hole expression =>
          have allowed := List.forall_mem_cons.1 allowed
          apply rel.bind
          · exact rel.bind (rel.evalOrUndefined allowed.1 scope) fun _ => rel.pure _
          · exact fun _ => rel.bind (ih allowed.2) fun _ => rel.pure _

theorem interpolate (rel : Composes kinds related) {template : String}
    (allowed : Template.Allowed kinds template) (scope : Scope) :
    related (Template.interpolate scope template) (Template.interpolate scope template) :=
  rel.bind (rel.fillPieces scope allowed) fun _ => rel.pure _

theorem valueOfText (rel : Composes kinds related) {template : String}
    (allowed : Template.Allowed kinds template) (scope : Scope) :
    related (Template.valueOfText scope template) (Template.valueOfText scope template) := by
  rw [Template.valueOfText]
  split
  · rename_i expression whole
    have inside := allowed expression (Template.mem_expressions_of_whole whole)
    exact rel.bind (rel.evalOrUndefined inside scope) fun _ => rel.pure _
  · exact rel.bind (rel.interpolate allowed scope) fun _ => rel.pure _

theorem recordOf (rel : Composes kinds related) {declared : Record Json} (scope : Scope)
    (allowed : ∀ template ∈ declared.texts, Template.Allowed kinds template) :
    related (Template.recordOf scope declared) (Template.recordOf scope declared) := by
  induction declared with
  | nil => exact rel.pure _
  | cons field rest ih =>
      obtain ⟨name, value⟩ := field
      have others : ∀ template ∈ Record.texts rest, Template.Allowed kinds template := by
        intro template member
        rcases List.mem_filterMap.1 member with ⟨other, declares, text⟩
        exact allowed template
          (List.mem_filterMap.2 ⟨other, List.mem_cons_of_mem _ declares, text⟩)
      refine rel.bind ?_ fun _ => rel.bind (ih others) fun _ => rel.pure _
      cases value with
      | str template =>
          have own := allowed template (List.mem_filterMap.2 ⟨_, List.mem_cons_self .., rfl⟩)
          exact rel.valueOfText own scope
      | null | bool | num | arr | obj => exact rel.pure _

/-! ## Bindings -/

theorem transform (rel : Composes kinds related) (allowed : kinds .unsupportedExpression)
    (text : String) (scope : Scope) (value : Value) :
    related (Transform.apply text scope value) (Transform.apply text scope value) := by
  apply rel.bind
  · rw [Transform.result?]
    split
    · exact rel.script _ _ _
    · split
      · exact rel.pure _
      · exact rel.script _ _ _
  · intro result
    cases result with
    | some changed => exact rel.pure _
    | none => exact rel.bind (rel.warnOnce _ _ allowed) fun _ => rel.pure _

theorem value (rel : Composes kinds related) {b : Binding} (allowed : b.Allowed kinds)
    (scope : Scope) : related (b.value scope) (b.value scope) := by
  cases b with
  | path text => exact rel.pure _
  | structured parts =>
      rw [Binding.value, StructuredBinding.resolve]
      split
      · rename_i transform active
        apply rel.transform
        apply allowed
        intro none
        rw [StructuredBinding.activeTransform, show parts.transform = _ from none] at active
        cases active
      · exact rel.pure _

variable {devMode other : Bool}

theorem resolve (rel : Composes kinds related) (undefined : Develops devMode other related)
    {b : Binding} (allowed : b.Allowed kinds) (scope : Scope) :
    related (b.resolve devMode scope) (b.resolve other scope) := by
  rw [Binding.resolve_eq, Binding.resolve_eq]
  apply rel.bind (rel.value allowed scope)
  intro v
  cases v with
  | some found => exact rel.bind (rel.pure _) fun _ => rel.pure _
  | none => exact rel.bind (undefined _ _) fun _ => rel.pure _

/-! ## Components -/

theorem applyBindings (rel : Composes kinds related) (undefined : Develops devMode other related)
    {bindings : Record Binding} (allowed : ∀ b ∈ bindings.map Prod.snd, b.Allowed kinds)
    (scope : Scope) (props : Record Json) :
    related (Component.applyBindings devMode scope bindings props)
      (Component.applyBindings other scope bindings props) := by
  induction bindings generalizing props with
  | nil => exact rel.pure _
  | cons field rest ih =>
      have allowed := List.forall_mem_cons.1 allowed
      exact rel.bind (rel.resolve undefined allowed.1 scope) fun _ => ih allowed.2 _

variable {c : Component}

theorem applyDataBinding (rel : Composes kinds related)
    (undefined : Develops devMode other related)
    (allowed : ∀ b, c.dataBinding = some b → b.Allowed kinds) (scope : Scope)
    (props : Record Json) :
    related (c.applyDataBinding devMode scope props) (c.applyDataBinding other scope props) := by
  simp only [Component.applyDataBinding]
  split
  · exact rel.pure _
  · rename_i b declares
    apply rel.bind (rel.resolve undefined (allowed b declares) scope)
    intro value
    cases value <;> exact rel.pure _

theorem applyClassName (rel : Composes kinds related)
    (allowed : ∀ template, c.className = some template → Template.Allowed kinds template)
    (scope : Scope) (props : Record Json) :
    related (c.applyClassName scope props) (c.applyClassName scope props) := by
  simp only [Component.applyClassName]
  split
  · exact rel.pure _
  · rename_i template declares
    exact rel.bind (rel.interpolate (allowed template declares) scope) fun _ => rel.pure _

theorem applyStyle (rel : Composes kinds related)
    (allowed : ∀ style, c.style = some style →
      ∀ template ∈ style.texts, Template.Allowed kinds template)
    (scope : Scope) (props : Record Json) :
    related (c.applyStyle scope props) (c.applyStyle scope props) := by
  simp only [Component.applyStyle]
  split
  · exact rel.pure _
  · rename_i style declares
    exact rel.bind (rel.recordOf scope (allowed style declares)) fun _ => rel.pure _

theorem resolveProps (rel : Composes kinds related) (undefined : Develops devMode other related)
    (templates : ∀ template ∈ c.templates, Template.Allowed kinds template)
    (bindings : ∀ b ∈ c.allBindings, b.Allowed kinds) (scope : Scope) :
    related (c.resolveProps devMode scope) (c.resolveProps other scope) := by
  simp only [Component.templates, List.forall_mem_append, Option.mem_toList] at templates
  obtain ⟨⟨⟨⟨props, className⟩, style⟩, -⟩, -⟩ := templates
  simp only [Component.allBindings, List.forall_mem_append, Option.mem_toList] at bindings
  obtain ⟨⟨bindings, dataBinding⟩, -⟩ := bindings
  apply rel.bind (rel.recordOf scope props)
  intro declared
  apply rel.bind (rel.applyBindings undefined bindings scope declared)
  intro bound
  apply rel.bind (rel.applyDataBinding undefined dataBinding scope bound)
  intro withData
  apply rel.bind (rel.applyClassName className scope withData)
  refine fun withClass => rel.applyStyle (fun fields declares => ?_) scope withClass
  rw [declares] at style
  exact style

theorem outcome (rel : Composes kinds related)
    (allowed : ∀ condition ∈ c.conditions, Expr.Allowed kinds condition) (scope : Scope) :
    related (c.outcome scope) (c.outcome scope) := by
  simp only [Component.outcome]
  split
  · rename_i k declares
    have condition := allowed k.condition (by simp [Component.conditions, declares])
    exact rel.bind (rel.holds condition scope) fun _ => rel.pure _
  · exact rel.pure _

variable {l : Loop}

theorem slots (rel : Composes kinds related)
    (allowed : ∀ condition, l.condition = some condition → Expr.Allowed kinds condition)
    (scope : Scope) (seen : List String) (index : Nat) (items : List Json) :
    related (l.slots scope seen index items) (l.slots scope seen index items) := by
  induction items generalizing seen index with
  | nil => exact rel.pure _
  | cons item rest ih =>
      refine rel.bind ?_ fun _ => rel.bind (ih _ _) fun _ => rel.pure _
      simp only [Loop.includes]
      split
      · rename_i condition declares
        exact rel.holds (allowed condition declares) _
      · exact rel.pure _

theorem expand (rel : Composes kinds related) (undefined : Develops devMode other related)
    (noArray : kinds .loopSourceNotArray)
    (allowed : ∀ condition, l.condition = some condition → Expr.Allowed kinds condition)
    (source : l.source.Allowed kinds) (scope : Scope) :
    related (l.expand devMode scope) (l.expand other scope) := by
  apply rel.bind (rel.resolve undefined source scope)
  intro v
  split
  · exact rel.slots allowed _ _ _ _
  · exact rel.bind (rel.warnOnce _ _ noArray) fun _ => rel.pure _

end Logged.Composes

end UiDoc
