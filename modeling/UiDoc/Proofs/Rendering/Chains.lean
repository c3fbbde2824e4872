import UiDoc.Proofs.Document.Height
import UiDoc.Proofs.Registry.Composites
import UiDoc.Proofs.Rendering.Invariants
import UiDoc.Proofs.Rendering.Tally

/-!
# Chains of definitions

A definition is not rendered inside of itself.  So with each definition on the way to a component,
fewer definitions are left that may still be rendered there, and the way is no longer than the
heights of the document and of all definitions together.
-/

namespace UiDoc

/-- The act may give this result. -/
def Logged.Gives {α : Type} (act : Logged α) (a : α) : Prop :=
  ∃ j, (act.run j).1 = a

namespace Render

open Rendering (SameFrom Composes)

/-! ## What is left to be rendered -/

/-- The heights of the definitions that are not being rendered, all together. -/
def remaining : (known : List (String × Component)) → (active : List String) → Nat
  | [], _ => 0
  | (name, definition) :: rest, active =>
      (if name ∈ active then 0 else definition.height) + remaining rest active

variable {known : List (String × Component)} {active : List String} {name : String}
  {c d definition : Component} {site deeper : Site}

theorem remaining_append_le (known : List (String × Component)) (active : List String)
    (name : String) : remaining known (active ++ [name]) ≤ remaining known active := by
  induction known with
  | nil => exact Nat.le_refl _
  | cons field rest ih =>
      obtain ⟨other, definition⟩ := field
      apply Nat.add_le_add _ ih
      by_cases listed : other ∈ active
      · simp [listed]
      · rw [if_neg listed]
        split
        · exact Nat.zero_le _
        · exact Nat.le_refl _

/-- When a definition begins to be rendered, its height is no longer left. -/
theorem height_add_remaining_le (member : (name, definition) ∈ known) (new : name ∉ active) :
    definition.height + remaining known (active ++ [name]) ≤ remaining known active := by
  induction known with
  | nil => cases member
  | cons field rest ih =>
      rcases List.mem_cons.1 member with rfl | later
      · have fewer := remaining_append_le rest active name
        simp only [remaining, List.mem_append, List.mem_singleton, or_true, if_true, if_neg new]
        omega
      · have left := ih later
        have fewer := remaining_append_le [field] active name
        simp only [remaining] at fewer ⊢
        omega

/-- The levels that there can still be at a component, at most. -/
def rank (known : List (String × Component)) (c : Component) (site : Site) : Nat :=
  c.height + remaining known site.active

/-- A place inside of a component. -/
abbrev Inner (known : List (String × Component)) (c : Component) (site : Site) :
    Component → Site → Prop :=
  c.Places Logged.Gives (fun name definition => (name, definition) ∈ known) site

/-- Inside of a component there are fewer levels left. -/
theorem rank_lt (inner : Inner known c site d deeper) :
    rank known d deeper < rank known c site := by
  have part (part : d ∈ c.parts) : d.height + remaining known site.active < rank known c site :=
    Nat.add_lt_add_right (Component.height_lt_of_part part) _
  cases inner with
  | branch gives member =>
      obtain ⟨j, shown⟩ := gives
      exact part ((shown ▸ c.outcome_of _ j).mem_parts member)
  | child member => exact part (List.mem_append_right _ member)
  | definition offered new =>
      have left := height_add_remaining_le offered new
      have positive := c.height_pos
      simp only [rank]
      omega

/-- The names of the definitions on the way to a component stay distinct. -/
theorem nodup_active (inner : Inner known c site d deeper) (distinct : site.active.Nodup) :
    deeper.active.Nodup := by
  cases inner with
  | branch | child => exact distinct
  | definition offered new =>
      rw [List.nodup_append]
      refine ⟨distinct, by simp, ?_⟩
      intro other member added single same
      exact new (List.mem_singleton.1 single ▸ same ▸ member)

/-! ## Supervised rendering -/

/-- Renders at most so many levels, and only where no definition is inside of itself.  Everything
else is left to another renderer. -/
def supervised (setting : Setting) (stray : Renderer) : (levels : Nat) → Renderer
  | 0, c, scope, key, site => stray c scope key site
  | levels + 1, c, scope, key, site =>
      if site.active.Nodup then component setting (supervised setting stray levels) c scope key site
      else stray c scope key site

variable {files : Files} {setting : Setting}

/-- While types stand for known definitions only, it is enough to compare what is rendered inside of
a component with what else is rendered there. -/
theorem sameFrom_composes (files : Files) (known : List (String × Component)) :
    Composes files Logged.Gives (fun name definition => (name, definition) ∈ known)
      (SameFrom fun p => p.registry.OffersOnly files known) where
  pure a p offers := ⟨rfl, offers⟩
  bind := SameFrom.bind
  logged _ next p offers := next _ ⟨p.journal, rfl⟩ _ offers
  resolve next p offers := next _ (fun _ _ found => offers.mem found) _ (offers.resolve _)
  warnDeprecated kind p offers := by
    rw [run_warnDeprecated]
    exact ⟨rfl, offers⟩

theorem sameFrom_gate (c : Component) (depth : Nat) :
    SameFrom (fun p => p.registry.OffersOnly files known) (gate c depth) (gate c depth) := by
  intro p offers
  obtain ⟨result, notes, run, -⟩ := run_gate c depth p
  rw [run]
  exact ⟨rfl, offers⟩

/-- Nothing is left to the other renderer: no definition is rendered inside of itself, and there are
no more levels than can be left at the component. -/
theorem sameFrom_supervised (stray : Renderer) {levels more : Nat}
    (within : rank known c site ≤ levels) (distinct : site.active.Nodup)
    (further : levels ≤ more + 1) (scope : Scope) (key : String) :
    SameFrom (fun p => p.registry.OffersOnly setting.files known)
      (supervised setting stray levels c scope key site) (upTo setting more c scope key site) := by
  induction levels generalizing c site more scope key with
  | zero =>
      have positive := c.height_pos
      simp only [rank] at within
      omega
  | succ levels ih =>
      simp only [supervised, if_pos distinct]
      have rel := sameFrom_composes setting.files known
      cases more with
      | zero =>
          apply rel.component (sameFrom_gate c site.depth)
          intro d deeper inner
          have fewer := rank_lt inner
          have positive := d.height_pos
          simp only [rank] at within fewer
          omega
      | succ more =>
          apply rel.component (sameFrom_gate c site.depth)
          intro d deeper inner scope key
          have fewer := rank_lt inner
          exact ih (by omega) (nodup_active inner distinct) (by omega) scope key

/-! ## Definitions inside of themselves -/

end Render

/-- The component is an instance of the definition of this name: it shows itself, and its type
stands for the definition. -/
structure Component.Instantiates (files : Files) (r : Registry) (c : Component) (name : String)
    (definition : Component) : Prop where
  plain : c.conditional = none
  other : ¬ c.isSlot = true
  stands : ((Registry.resolve files c.kind).run r).1 = some (.composite name definition)

/-- An instance has a type. -/
theorem Component.Instantiates.named {files : Files} {r : Registry} {c definition : Component}
    {name : String} (instantiates : c.Instantiates files r name definition) : c.kind ≠ "" := by
  intro unnamed
  have stands := instantiates.stands
  rw [unnamed, Registry.run_resolve_none (.inl rfl)] at stands
  cases stands

/-- The scripts of the pass are the compiled ones, and there is an entry of whatever has been warned
about, about the same place. -/
structure Pass.Told (p : Pass) : Prop where
  scripts : p.journal.scripts.Faithful
  complete : p.journal.Complete

namespace Rendering

theorem told_congruence (files : Files) : Congruence files fun x _ => Keeps Pass.Told x :=
  keeps_of_written (fun _ told => told.scripts) fun _ _ notes told kept written =>
    ⟨kept, written ▸ told.complete.writeAll notes⟩

/-- An entry stays, whatever is rendered after it. -/
theorem reports_congruence (files : Files) (kind : DiagnosticKind) (site : String) :
    Congruence files fun x _ => Keeps (fun p => p.Told ∧ p.journal.Reports kind site) x :=
  keeps_of_written (fun _ has => has.1.scripts) fun _ _ notes has kept written =>
    ⟨⟨kept, written ▸ has.1.complete.writeAll notes⟩, written ▸ has.2.writeAll notes⟩

end Rendering

namespace Render

open Rendering (run_bind_ok run_logged run_resolve)

variable {files : Files} {setting : Setting} {below : Renderer} {c definition : Component}
  {name : String} {site : Site} {p : Pass}

/-- An instance of a definition that is being rendered produces nothing, which is recorded. -/
theorem run_typed_active (below : Renderer) (told : p.Told)
    (stands : ((Registry.resolve setting.files c.kind).run p.registry).1 =
      some (.composite name definition)) (active : name ∈ site.active) (props : Record Json)
    (handlers : List BoundHandler) (scope : Scope) (key : String) :
    ∃ q, (typed setting below c props handlers scope key site).run.run p = (.ok [], q) ∧ q.Told ∧
      q.journal.Reports .circularDefinition name := by
  let asked : Pass := { p with
    registry := ((Registry.resolve setting.files c.kind).run p.registry).2 }
  have toldAsked : asked.Told := ⟨told.scripts, told.complete⟩
  have keeps := Rendering.told_congruence setting.files
  obtain ⟨warned, warns⟩ : ∃ q, (warnDeprecated c.kind).run.run asked = (.ok (), q) := by
    rw [run_warnDeprecated]
    exact ⟨_, run_logged _ asked⟩
  have toldWarned : warned.Told := by
    have kept := keeps.warnDeprecated c.kind asked toldAsked
    rwa [warns] at kept
  let note := Logged.warnOnce .circularDefinition name (circularMessage site.active name)
  have notes := run_logged note warned
  refine ⟨_, ?_, keeps.logged (Logged.steady_warnOnce _ _ rfl) warned toldWarned,
    toldWarned.complete.reports_warnOnce .circularDefinition name
      (circularMessage site.active name)⟩
  rw [typed, run_bind_ok (run_resolve setting.files c.kind p), stands]
  dsimp only
  rw [run_bind_ok warns, composite, if_pos active, run_bind_ok notes]
  rfl

/-- An instance of a definition that is being rendered produces nothing if the guard lets it pass,
and there is an entry about the definition from then on. -/
theorem run_component_active (told : p.Told)
    (instantiates : c.Instantiates setting.files p.registry name definition)
    (active : name ∈ site.active) (proceeds : (p.guard.enter site.depth).1 = .proceed)
    (scope : Scope) (key : String) :
    ∃ q, (component setting below c scope key site).run.run p = (.ok [], q) ∧ q.Told ∧
      q.journal.Reports .circularDefinition name := by
  let entered : Pass := { p with guard := (p.guard.enter site.depth).2 }
  have gated : (gate c site.depth).run.run p = (.ok none, entered) := run_gate_proceed proceeds
  have toldEntered : entered.Told := ⟨told.scripts, told.complete⟩
  let act := c.resolveProps setting.devMode scope
  let resolved : Pass := { entered with journal := (act.run entered.journal).2 }
  have toldResolved : resolved.Told :=
    (Rendering.told_congruence setting.files).logged (c.steady_resolveProps setting.devMode scope)
      entered toldEntered
  obtain ⟨q, run, toldLast, reports⟩ := run_typed_active below toldResolved
    instantiates.stands active (act.run entered.journal).1 (c.boundHandlers scope) scope key
  refine ⟨q, ?_, toldLast, reports⟩
  rw [component_eq, run_bind_ok gated]
  dsimp only
  rw [run_admitted setting below instantiates.plain instantiates.other, itself,
    run_bind_ok (run_logged act entered), if_neg instantiates.named]
  exact run

/-- The renderer refuses definitions inside of themselves.  An instance of a definition that is
being rendered produces nothing if the guard lets it pass, and from then on there is an entry about
the definition. -/
structure Refuses (setting : Setting) (render : Renderer) : Prop where
  refuses : ∀ {p : Pass} {c definition : Component} {name : String} {site : Site}, p.Told →
    c.Instantiates setting.files p.registry name definition → name ∈ site.active →
    (p.guard.enter site.depth).1 = .proceed → ∀ scope key,
    ∃ q, (render c scope key site).run.run p = (.ok [], q) ∧
      q.journal.Reports .circularDefinition name
  told : ∀ c scope key site, Rendering.Keeps Pass.Told (render c scope key site)
  stays : ∀ name c scope key site,
    Rendering.Keeps (fun p => p.Told ∧ p.journal.Reports .circularDefinition name)
      (render c scope key site)

theorem refuses_upTo (setting : Setting) (levels : Nat) :
    Refuses setting (upTo setting levels) where
  refuses told instantiates active proceeds scope key := by
    obtain ⟨q, run, -, reports⟩ : ∃ q, (upTo setting levels _ scope key _).run.run _ = (.ok [], q) ∧
        q.Told ∧ q.journal.Reports .circularDefinition _ := by
      cases levels <;> exact run_component_active told instantiates active proceeds scope key
    exact ⟨q, run, reports⟩
  told c scope key site := (Rendering.told_congruence setting.files).upTo levels site c scope key
  stays name c scope key site :=
    (Rendering.reports_congruence setting.files .circularDefinition name).upTo levels site c scope key

end Render

end UiDoc
