import UiDoc.Proofs.Rendering.Runs

/-!
# Relations between two renderings

A relation between parts of passes that is kept by sequences and by the few acts that look at a pass
is kept by rendering as a whole.  So a comparison of two passes goes through the cases of rendering
once, here, and afterwards looks at those acts only.  The two passes may differ in their setting.
-/

namespace UiDoc

/-! ## Places -/

/-- What a component has rendered further inside, and where: the components of a branch, its
children, and the definition that its type stands for.  It depends on what acts may give, and on the
definitions that are offered. -/
inductive Component.Places (gives : {α : Type} → Logged α → α → Prop)
    (offers : String → Component → Prop) (c : Component) (site : Site) :
    Component → Site → Prop where
  | branch {scope : Scope} {content : Content} {d : Component} :
      gives (c.outcome scope) (.branch content) → d ∈ content.components →
      Places gives offers c site d site.deeper
  | child {d : Component} : d ∈ c.childNodes → Places gives offers c site d site.deeper
  | definition {name : String} {definition : Component} {slot : List Node} :
      offers name definition → name ∉ site.active →
      Places gives offers c site definition
        { depth := site.depth + 1, active := site.active ++ [name], slot := some slot }

/-- Everything inside of a component is one level deeper. -/
theorem Component.Places.depth {gives : {α : Type} → Logged α → α → Prop}
    {offers : String → Component → Prop} {c d : Component} {site deeper : Site}
    (places : c.Places gives offers site d deeper) : deeper.depth = site.depth + 1 := by
  cases places <;> rfl

/-! ## What components write -/

/-- What components may warn about: neither limits of the guard nor undefined bindings. -/
def DiagnosticKind.Ordinary (kind : DiagnosticKind) : Prop :=
  kind.isLimit = false ∧ kind ≠ .undefinedBinding

theorem Expr.allowed_ordinary (text : String) : Expr.Allowed DiagnosticKind.Ordinary text :=
  fun _ => ⟨rfl, nofun⟩

theorem Template.allowed_ordinary (template : String) :
    Template.Allowed DiagnosticKind.Ordinary template :=
  fun expression _ => Expr.allowed_ordinary expression

theorem Binding.allowed_ordinary (b : Binding) : b.Allowed DiagnosticKind.Ordinary :=
  fun _ => ⟨rfl, nofun⟩

namespace Rendering

/-! ## Relations between two settings -/

/-- The relation is kept by whatever a component that the guard lets pass is composed of in two
settings, where acts that are related give only what they may, and types stand only for definitions
that are offered. -/
structure Parallels (left right : Setting) (acts : {α : Type} → Logged α → Logged α → Prop)
    (gives : {α : Type} → Logged α → α → Prop) (offers : String → Component → Prop)
    (related : {α : Type} → Rendering α → Rendering α → Prop) : Prop where
  composes : Logged.Composes DiagnosticKind.Ordinary acts
  develops : Logged.Develops left.devMode right.devMode acts
  pure {α : Type} (a : α) : related (pure a) (pure a)
  bind {α β : Type} {x y : Rendering α} {f g : α → Rendering β} :
    related x y → (∀ a, related (f a) (g a)) → related (x >>= f) (y >>= g)
  logged {α β : Type} {act other : Logged α} {f g : α → Rendering β} : acts act other →
    (∀ a, gives act a → related (f a) (g a)) → related (logged act >>= f) (logged other >>= g)
  resolve {β : Type} {kind : String} {f g : Option Renderable → Rendering β} :
    (∀ found, (∀ name definition, found = some (.composite name definition) →
      offers name definition) → related (f found) (g found)) →
    related (resolve left.files kind >>= f) (resolve right.files kind >>= g)
  warnDeprecated (kind : String) :
    related (Render.warnDeprecated kind) (Render.warnDeprecated kind)

/-- The renderers are related at all places inside of a component. -/
def Composes.Inside (gives : {α : Type} → Logged α → α → Prop) (offers : String → Component → Prop)
    (related : {α : Type} → Rendering α → Rendering α → Prop) (below other : Renderer)
    (c : Component) (site : Site) : Prop :=
  ∀ d deeper, c.Places gives offers site d deeper → ∀ scope key,
    related (below d scope key deeper) (other d scope key deeper)

open Composes (Inside)

theorem Composes.Inside.childNodes {gives : {α : Type} → Logged α → α → Prop}
    {offers : String → Component → Prop}
    {related : {α : Type} → Rendering α → Rendering α → Prop} {below other : Renderer}
    {c : Component} {site : Site} (inner : Inside gives offers related below other c site) :
    ∀ d ∈ c.childNodes, ∀ scope key,
      related (below d scope key site.deeper) (other d scope key site.deeper) :=
  fun d member => inner d site.deeper (.child member)

namespace Parallels

open Render

variable {left right : Setting} {acts : {α : Type} → Logged α → Logged α → Prop}
  {gives : {α : Type} → Logged α → α → Prop} {offers : String → Component → Prop}
  {related : {α : Type} → Rendering α → Rendering α → Prop} {below other : Renderer}

theorem components (rel : Parallels left right acts gives offers related) {site : Site}
    {list : List Component}
    (inner : ∀ d ∈ list, ∀ scope key, related (below d scope key site) (other d scope key site))
    (scope : Scope) (parent : String) (repeated : Bool) (index : Nat) :
    related (components below scope parent repeated site index list)
      (Render.components other scope parent repeated site index list) := by
  induction list generalizing index with
  | nil => exact rel.pure _
  | cons c rest ih =>
      have others := ih (fun d member => inner d (List.mem_cons_of_mem c member)) (index + 1)
      apply rel.bind (inner c (List.mem_cons_self ..) _ _)
      exact fun _ => rel.bind others fun _ => rel.pure _

theorem warnOnce (rel : Parallels left right acts gives offers related) {kind : DiagnosticKind}
    (ordinary : kind.Ordinary) (site message : String) (nodes : List Node) :
    related (Rendering.logged (Logged.warnOnce kind site message) >>= fun _ => Pure.pure nodes)
      (Rendering.logged (Logged.warnOnce kind site message) >>= fun _ => Pure.pure nodes) :=
  rel.logged (rel.composes.warnOnce site message ordinary) fun _ _ => rel.pure _

theorem text (rel : Parallels left right acts gives offers related) (scope : Scope)
    (template : String) : related (text scope template) (Render.text scope template) :=
  rel.logged (rel.composes.interpolate (Template.allowed_ordinary template) scope)
    fun _ _ => rel.pure _

theorem branch (rel : Parallels left right acts gives offers related) {site : Site}
    {content : Content} (inner : ∀ d ∈ content.components, ∀ scope key,
      related (below d scope key site) (other d scope key site)) (scope : Scope) (key : String) :
    related (branch below scope key site content)
      (Render.branch other scope key site content) := by
  cases content with
  | text template => exact rel.text _ _
  | nodes list => exact rel.components inner _ _ _ _
  | node c => exact inner c (List.mem_singleton_self c) _ _

variable {c : Component}

theorem childList (rel : Parallels left right acts gives offers related) {site : Site}
    (inner : ∀ d ∈ c.childNodes, ∀ scope key,
      related (below d scope key site) (other d scope key site)) (scope : Scope)
    (parent : String) (repeated : Bool) :
    related (childList below c scope parent repeated site)
      (Render.childList other c scope parent repeated site) := by
  simp only [Render.childList]
  split
  · exact rel.pure _
  · exact rel.text _ _
  · rename_i content _ declares
    apply rel.components
    intro d member
    apply inner
    rw [Component.childNodes, declares]
    exact member

theorem slots (rel : Parallels left right acts gives offers related) {site : Site}
    (inner : ∀ d ∈ c.childNodes, ∀ scope key,
      related (below d scope key site) (other d scope key site)) (scope : Scope) (key : String)
    (list : List Slot) :
    related (slots below c scope key site list) (Render.slots other c scope key site list) := by
  induction list with
  | nil => exact rel.pure _
  | cons slot rest ih =>
      unfold Render.slots
      dsimp only
      split
      · exact rel.bind (rel.childList inner _ _ _) fun _ => rel.bind ih fun _ => rel.pure _
      · exact rel.bind (rel.pure _) fun _ => rel.bind ih fun _ => rel.pure _

theorem expand (rel : Parallels left right acts gives offers related) (l : Loop) (scope : Scope) :
    acts (l.expand left.devMode scope) (l.expand right.devMode scope) :=
  rel.composes.expand rel.develops ⟨rfl, nofun⟩ (fun condition _ => Expr.allowed_ordinary condition)
    l.source.allowed_ordinary scope

theorem props (rel : Parallels left right acts gives offers related) (c : Component)
    (scope : Scope) :
    acts (c.resolveProps left.devMode scope) (c.resolveProps right.devMode scope) :=
  rel.composes.resolveProps rel.develops (fun template _ => Template.allowed_ordinary template)
    (fun b _ => b.allowed_ordinary) scope

theorem children (rel : Parallels left right acts gives offers related) {site : Site}
    (inner : ∀ d ∈ c.childNodes, ∀ scope key,
      related (below d scope key site) (other d scope key site)) (scope : Scope) (key : String) :
    related (children left below c scope key site)
      (Render.children right other c scope key site) := by
  simp only [Render.children]
  split
  · exact rel.childList inner _ _ _
  · exact rel.logged (rel.expand _ _) fun _ _ => rel.slots inner _ _ _

variable {site : Site}

theorem composite (rel : Parallels left right acts gives offers related)
    (inner : Inside gives offers related below other c site) {name : String}
    {definition : Component} (offered : offers name definition) (props : Record Json)
    (handlers : List BoundHandler) (scope : Scope) (key : String) :
    related (composite left below c name definition props handlers scope key site)
      (Render.composite right other c name definition props handlers scope key site) := by
  simp only [Render.composite]
  split
  · exact rel.warnOnce ⟨rfl, by decide⟩ _ _ _
  · rename_i new
    apply rel.bind (rel.children inner.childNodes _ _)
    intro slot
    exact rel.bind (inner _ _ (.definition offered new) _ _) fun _ => rel.pure _

theorem typed (rel : Parallels left right acts gives offers related)
    (inner : Inside gives offers related below other c site) (props : Record Json)
    (handlers : List BoundHandler) (scope : Scope) (key : String) :
    related (typed left below c props handlers scope key site)
      (Render.typed right other c props handlers scope key site) := by
  apply rel.resolve
  intro found offered
  cases found with
  | none => exact rel.warnOnce ⟨rfl, by decide⟩ _ _ _
  | some renderable =>
      apply rel.bind (rel.warnDeprecated c.kind)
      intro _
      cases renderable with
      | composite name definition => exact rel.composite inner (offered _ _ rfl) _ _ _ _
      | element tag tier | icon name =>
          exact rel.bind (rel.children inner.childNodes _ _) fun _ => rel.pure _

/-- What is related inside of a component is related at the component, if the guard lets it pass. -/
theorem admitted (rel : Parallels left right acts gives offers related)
    (inner : Inside gives offers related below other c site) (scope : Scope) (key : String) :
    related (admitted left below c scope key site)
      (Render.admitted right other c scope key site) := by
  have conditions := rel.composes.outcome fun condition (_ : condition ∈ c.conditions) =>
    Expr.allowed_ordinary condition
  apply rel.logged (conditions scope)
  intro outcome shown
  cases outcome with
  | empty reason => exact rel.pure _
  | branch content =>
      exact rel.branch (fun d member => inner d _ (.branch shown member)) _ _
  | unconditional =>
      dsimp only
      split
      · exact rel.pure _
      · apply rel.logged (rel.props c scope)
        intro props _
        split
        · exact rel.bind (rel.children inner.childNodes _ _) fun _ => rel.pure _
        · exact rel.typed inner _ _ _ _

/-- What is related at the gate and inside of a component is related at the component. -/
theorem component (rel : Parallels left right acts gives offers related)
    (gate : related (gate c site.depth) (gate c site.depth))
    (inner : Inside gives offers related below other c site) (scope : Scope) (key : String) :
    related (component left below c scope key site)
      (Render.component right other c scope key site) := by
  rw [component_eq, component_eq]
  apply rel.bind gate
  intro cut
  cases cut with
  | some nodes => exact rel.pure _
  | none => exact rel.admitted inner scope key

/-- What is related at every gate is related at every component, if nothing needs to be known of
acts and types. -/
theorem upTo (rel : Parallels left right acts (fun _ _ => True) (fun _ _ => True) related)
    (gate : ∀ c depth, related (gate c depth) (gate c depth)) (levels : Nat) (c : Component)
    (scope : Scope) (key : String) (site : Site) :
    related (upTo left levels c scope key site) (Render.upTo right levels c scope key site) := by
  induction levels generalizing c scope key site with
  | zero => exact rel.component (gate c _) (fun _ _ _ _ _ => rel.pure _) scope key
  | succ levels ih =>
      exact rel.component (gate c _) (fun d deeper _ _ _ => ih d _ _ deeper) scope key

end Parallels

/-! ## Relations within one setting -/

/-- The relation is kept by whatever a component that the guard lets pass is composed of, where acts
give only what they may, and types stand only for definitions that are offered. -/
structure Composes (files : Files) (gives : {α : Type} → Logged α → α → Prop)
    (offers : String → Component → Prop)
    (related : {α : Type} → Rendering α → Rendering α → Prop) : Prop where
  pure {α : Type} (a : α) : related (pure a) (pure a)
  bind {α β : Type} {x y : Rendering α} {f g : α → Rendering β} :
    related x y → (∀ a, related (f a) (g a)) → related (x >>= f) (y >>= g)
  logged {α β : Type} {act : Logged α} {f g : α → Rendering β} : act.Steady →
    (∀ a, gives act a → related (f a) (g a)) → related (logged act >>= f) (logged act >>= g)
  resolve {β : Type} {kind : String} {f g : Option Renderable → Rendering β} :
    (∀ found, (∀ name definition, found = some (.composite name definition) →
      offers name definition) → related (f found) (g found)) →
    related (resolve files kind >>= f) (resolve files kind >>= g)
  warnDeprecated (kind : String) :
    related (Render.warnDeprecated kind) (Render.warnDeprecated kind)

namespace Composes

open Render

variable {setting : Setting} {gives : {α : Type} → Logged α → α → Prop}
  {offers : String → Component → Prop}
  {related : {α : Type} → Rendering α → Rendering α → Prop} {below other : Renderer}

/-- In one setting, the acts of both sides are the same and steady. -/
theorem parallels (rel : Composes setting.files gives offers related) :
    Parallels setting setting (fun x y => x = y ∧ x.Steady) gives offers related where
  composes := {
    pure := fun a => ⟨rfl, Logged.steady_pure a⟩
    bind := fun ⟨same, steady⟩ next =>
      ⟨congr (congrArg _ same) (funext fun a => (next a).1), steady.bind fun a => (next a).2⟩
    warnOnce := fun site message ordinary =>
      ⟨rfl, Logged.steady_warnOnce site message ordinary.1⟩
    script := fun source scope args => ⟨rfl, Logged.steady_composes.script source scope args⟩ }
  develops site message :=
    ⟨rfl, Logged.steady_develops setting.devMode setting.devMode site message⟩
  pure := rel.pure
  bind := rel.bind
  logged acts next := by
    obtain ⟨rfl, steady⟩ := acts
    exact rel.logged steady next
  resolve := rel.resolve
  warnDeprecated := rel.warnDeprecated

theorem components (rel : Composes setting.files gives offers related) {site : Site}
    {list : List Component}
    (inner : ∀ d ∈ list, ∀ scope key, related (below d scope key site) (other d scope key site))
    (scope : Scope) (parent : String) (repeated : Bool) (index : Nat) :
    related (components below scope parent repeated site index list)
      (Render.components other scope parent repeated site index list) :=
  rel.parallels.components inner scope parent repeated index

theorem branch (rel : Composes setting.files gives offers related) {site : Site}
    {content : Content} (inner : ∀ d ∈ content.components, ∀ scope key,
      related (below d scope key site) (other d scope key site)) (scope : Scope) (key : String) :
    related (branch below scope key site content)
      (Render.branch other scope key site content) :=
  rel.parallels.branch inner scope key

variable {c : Component}

theorem children (rel : Composes setting.files gives offers related) {site : Site}
    (inner : ∀ d ∈ c.childNodes, ∀ scope key,
      related (below d scope key site) (other d scope key site)) (scope : Scope) (key : String) :
    related (children setting below c scope key site)
      (Render.children setting other c scope key site) :=
  rel.parallels.children inner scope key

variable {site : Site}

/-- What is related at the gate and inside of a component is related at the component. -/
theorem component (rel : Composes setting.files gives offers related)
    (gate : related (gate c site.depth) (gate c site.depth))
    (inner : Inside gives offers related below other c site) (scope : Scope) (key : String) :
    related (component setting below c scope key site)
      (Render.component setting other c scope key site) :=
  rel.parallels.component gate inner scope key

end Composes

/-! ## Relations that are kept everywhere -/

/-- The relation is kept by whatever rendering is composed of. -/
structure Congruence (files : Files)
    (related : {α : Type} → Rendering α → Rendering α → Prop) : Prop where
  pure {α : Type} (a : α) : related (pure a) (pure a)
  bind {α β : Type} {x y : Rendering α} {f g : α → Rendering β} :
    related x y → (∀ a, related (f a) (g a)) → related (x >>= f) (y >>= g)
  logged {α : Type} {act : Logged α} : act.Steady → related (logged act) (logged act)
  resolve (kind : String) : related (resolve files kind) (resolve files kind)
  warnDeprecated (kind : String) :
    related (Render.warnDeprecated kind) (Render.warnDeprecated kind)
  gate (c : Component) (depth : Nat) : related (Render.gate c depth) (Render.gate c depth)

namespace Congruence

open Render

variable {setting : Setting} {related : {α : Type} → Rendering α → Rendering α → Prop}
  {below other : Renderer}

/-- Two renderers are related at a place. -/
def At (related : {α : Type} → Rendering α → Rendering α → Prop) (below other : Renderer)
    (site : Site) : Prop :=
  ∀ c scope key, related (below c scope key site) (other c scope key site)

/-- Two renderers are related at every place of some depth. -/
def AtDepth (related : {α : Type} → Rendering α → Rendering α → Prop) (below other : Renderer)
    (depth : Nat) : Prop :=
  ∀ site : Site, site.depth = depth → At related below other site

/-- Nothing needs to be known of acts and types. -/
theorem composes {files : Files} (rel : Congruence files related) :
    Composes files (fun _ _ => True) (fun _ _ => True) related where
  pure := rel.pure
  bind := rel.bind
  logged steady next := rel.bind (rel.logged steady) fun a => next a trivial
  resolve next := rel.bind (rel.resolve _) fun found => next found fun _ _ _ => trivial
  warnDeprecated := rel.warnDeprecated

theorem components (rel : Congruence setting.files related) {site : Site}
    (inner : At related below other site) (scope : Scope) (parent : String) (repeated : Bool)
    (index : Nat) (list : List Component) :
    related (components below scope parent repeated site index list)
      (Render.components other scope parent repeated site index list) :=
  rel.composes.components (fun d _ => inner d) scope parent repeated index

theorem children (rel : Congruence setting.files related) {site : Site}
    (inner : At related below other site) (c : Component) (scope : Scope) (key : String) :
    related (children setting below c scope key site)
      (Render.children setting other c scope key site) :=
  rel.composes.children (fun d _ => inner d) scope key

/-- What is related one level below is related at a component. -/
theorem component (rel : Congruence setting.files related) {site : Site}
    (inner : AtDepth related below other (site.depth + 1)) :
    At related (component setting below) (Render.component setting other) site := by
  intro c scope key
  apply rel.composes.component (rel.gate c site.depth)
  exact fun d deeper places => inner deeper places.depth d

/-- Rendering is related to itself. -/
theorem upTo (rel : Congruence setting.files related) (levels : Nat) (site : Site) :
    At related (upTo setting levels) (Render.upTo setting levels) site := by
  induction levels generalizing site with
  | zero => exact rel.component fun _ _ _ _ _ => rel.pure _
  | succ levels ih => exact rel.component fun deeper _ => ih deeper

end Congruence

end Rendering

end UiDoc
