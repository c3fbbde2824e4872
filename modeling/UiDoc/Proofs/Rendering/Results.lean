import UiDoc.Proofs.Registry.Definitions
import UiDoc.Proofs.Rendering.Runs
import UiDoc.Proofs.Rendering.Tally

/-!
# Results of rendering

What can be said of all results of the parts of an act can be said of the results of the whole,
whatever has been written and compiled before.  Of the registry something is known, which stays
known when it is asked for types.
-/

namespace UiDoc

namespace Logged

variable {α β : Type} {act : Logged α} {next : α → Logged β} {gives : α → Prop}
  {givesNext : β → Prop}

/-- All results are such results, from whichever journal. -/
def Always (act : Logged α) (gives : α → Prop) : Prop :=
  ∀ j, gives (act.run j).1

theorem always_pure {a : α} (holds : gives a) : Always (pure a) gives :=
  fun _ => holds

theorem Always.bind (first : act.Always gives) (second : ∀ a, gives a → (next a).Always givesNext) :
    (act >>= next).Always givesNext :=
  fun j => second _ (first j) _

/-- Whatever the first result is, the results in the end are such results. -/
theorem always_bind (act : Logged α) (second : ∀ a, (next a).Always givesNext) :
    (act >>= next).Always givesNext :=
  fun _ => second _ _

end Logged

namespace Rendering

open Render (gate)

/-- What is known of the registry stays known, and the act gives such results only. -/
def Delivers (known : Registry → Prop) {α : Type} (x : Rendering α) (gives : α → Prop) : Prop :=
  ∀ p a q, known p.registry → x.run.run p = (.ok a, q) → known q.registry ∧ gives a

variable {files : Files} {known : Registry → Prop} {α β : Type} {x : Rendering α}
  {f : α → Rendering β} {gives : α → Prop} {givesNext : β → Prop}

theorem delivers_pure {a : α} (holds : gives a) : Delivers known (pure a) gives := by
  intro p a q knows run
  cases run
  exact ⟨knows, holds⟩

theorem Delivers.bind (first : Delivers known x gives)
    (second : ∀ a, gives a → Delivers known (f a) givesNext) :
    Delivers known (x >>= f) givesNext := by
  intro p b r knows run
  obtain ⟨a, q, runFirst, runSecond⟩ := run_bind_eq_ok.1 run
  obtain ⟨knowsNext, holds⟩ := first p a q knows runFirst
  exact second a holds q b r knowsNext runSecond

theorem Delivers.mono {weaker : α → Prop} (delivers : Delivers known x gives)
    (weaken : ∀ a, gives a → weaker a) : Delivers known x weaker :=
  fun p a q knows run => (delivers p a q knows run).imp_right (weaken a)

theorem delivers_logged {act : Logged α} (always : act.Always gives) :
    Delivers known (logged act) gives := by
  intro p a q knows run
  cases run
  exact ⟨knows, always p.journal⟩

/-- Whatever is written does not matter for the rest. -/
theorem delivers_logged_bind {act : Logged α} (rest : ∀ a, Delivers known (f a) givesNext) :
    Delivers known (logged act >>= f) givesNext := by
  have any : Delivers known (logged act) fun _ => True := delivers_logged fun _ => trivial
  exact any.bind fun a _ => rest a

theorem delivers_resolve {kind : String} {finds : Option Renderable → Prop}
    (keeps : ∀ r, known r → known ((Registry.resolve files kind).run r).2)
    (found : ∀ r, known r → finds ((Registry.resolve files kind).run r).1) :
    Delivers known (resolve files kind) finds := by
  intro p a q knows run
  cases run
  exact ⟨keeps p.registry knows, found p.registry knows⟩

theorem delivers_warnDeprecated (kind : String) :
    Delivers known (Render.warnDeprecated kind) fun _ => True := by
  intro p a q knows run
  rw [Render.run_warnDeprecated] at run
  cases run
  exact ⟨knows, trivial⟩

/-- Cut off, a component leaves nothing but a mark. -/
theorem delivers_gate {good : List Node → Prop} (nothing : good [])
    (mark : ∀ nodeId depth, good [.fallback nodeId depth]) (c : Component) (depth : Nat) :
    Delivers known (gate c depth) fun cut => ∀ nodes, cut = some nodes → good nodes := by
  intro p cut q knows run
  cases Render.gated_of_run run with
  | proceeds => exact ⟨knows, nofun⟩
  | cut shown =>
      refine ⟨knows, fun nodes same => ?_⟩
      cases same
      cases shown with
      | false => exact nothing
      | true => exact mark c.label depth

/-- What is said of all definitions that the registry knows of can be said of the one that a type
stands for. -/
theorem delivers_defined (files : Files) (holds : Component → Prop) (kind : String) :
    Delivers (Registry.Defines files holds) (resolve files kind) fun found =>
      ∀ renderable, found = some renderable → renderable.Defines holds :=
  delivers_resolve (fun _ defines => (defines.resolve kind).1)
    (fun _ defines => (defines.resolve kind).2)

/-- A component shows what it declares. -/
theorem delivers_outcome (c : Component) (scope : Scope) :
    Delivers known (logged (c.outcome scope)) fun outcome => outcome.Of c :=
  delivers_logged (c.outcome_of scope)

/-- Where what is known is kept, nothing needs to be said of the result. -/
theorem delivers_of_keeps (keeps : ∀ p, known p.registry → known (x.run.run p).2.registry) :
    Delivers known x fun _ => True := by
  intro p a q knows run
  have kept := keeps p knows
  rw [run] at kept
  exact ⟨kept, trivial⟩

section nodes

variable {good : List Node → Prop} {setting : Setting} {below : Renderer} {scope : Scope}
  {site : Site} {key : String}

/-- Nodes of components that are rendered one after the other. -/
theorem delivers_components (nothing : good [])
    (append : ∀ front back, good front → good back → good (front ++ back)) {list : List Component}
    (inner : ∀ c ∈ list, ∀ key, Delivers known (below c scope key site) good) (parent : String)
    (repeated : Bool) (index : Nat) :
    Delivers known (Render.components below scope parent repeated site index list) good := by
  induction list generalizing index with
  | nil => exact delivers_pure nothing
  | cons c rest ih =>
      obtain ⟨first, others⟩ := List.forall_mem_cons.1 inner
      exact (first _).bind fun front holds => (ih others (index + 1)).bind fun back holdsBack =>
        delivers_pure (append front back holds holdsBack)

theorem delivers_branch {content : Content} (nothing : good [])
    (append : ∀ front back, good front → good back → good (front ++ back))
    (text : content.texts = [] ∨ ∀ text, good [.text text])
    (inner : ∀ c ∈ content.components, ∀ key, Delivers known (below c scope key site) good) :
    Delivers known (Render.branch below scope key site content) good := by
  cases content with
  | node c => exact List.forall_mem_singleton.1 inner _
  | nodes list => exact delivers_components nothing append inner key false 0
  | text template =>
      have shown := text.resolve_left (List.cons_ne_nil _ _)
      exact delivers_logged_bind fun filled => delivers_pure (shown filled)

/-- The nodes of a component are those of what the guard lets pass, or a mark, or none. -/
theorem delivers_component {c : Component} (nothing : good [])
    (mark : ∀ nodeId depth, good [.fallback nodeId depth])
    (admitted : Delivers known (Render.admitted setting below c scope key site) good) :
    Delivers known (Render.component setting below c scope key site) good := by
  rw [Render.component_eq]
  refine (delivers_gate nothing mark c site.depth).bind fun cut holds => ?_
  cases cut with
  | some nodes => exact delivers_pure (holds nodes rfl)
  | none => exact admitted

end nodes

/-! ## Comparing results -/

variable {g : α → Rendering β} {p : Pass}

/-- It is enough to compare how two acts go on after what they have in common. -/
theorem run_bind_congr (same : ∀ a q, x.run.run p = (.ok a, q) →
    (f a).run.run q = (g a).run.run q) : (x >>= f).run.run p = (x >>= g).run.run p := by
  cases run : x.run.run p with
  | mk result q =>
      cases result with
      | error h => rw [run_bind_error run, run_bind_error run]
      | ok a =>
          rw [run_bind_ok run, run_bind_ok run]
          exact same a q run

theorem run_map (change : α → β) (x : Rendering α) (p : Pass) :
    (change <$> x).run.run p = Prod.map (Except.map change) id (x.run.run p) := by
  rw [map_eq_pure_bind]
  cases run : x.run.run p with
  | mk result q =>
      cases result with
      | error h =>
          rw [run_bind_error run]
          rfl
      | ok a =>
          rw [run_bind_ok run]
          rfl

end Rendering

end UiDoc
