import UiDoc.Proofs.Journal.Composition
import UiDoc.Proofs.Record

/-!
# What is written into a journal

Conditions, templates, bindings and loops never look at what has been written before: each has one
result and one list of notes, whatever the journal, if the scripts kept in it are the compiled ones.
None of the notes is about a limit of the guard, and none is about an expression unless it cannot be
evaluated or is a transform.
-/

namespace UiDoc

/-! ## Compiled scripts -/

namespace Script.Cache

/-- What is kept of each script is the outcome of compiling it. -/
def Faithful (cache : Cache) : Prop :=
  ∀ source known, cache.programs.find? source = some known → known = Program.compile? source

theorem faithful_empty : Faithful {} := by
  intro source known found
  cases found

variable {cache : Cache}

/-- A script is compiled or has been compiled, which makes no difference. -/
theorem Faithful.program (faithful : cache.Faithful) (source : String) :
    (cache.program source).1 = Program.compile? source ∧ (cache.program source).2.Faithful := by
  simp only [Cache.program]
  split
  · rename_i known found
    exact ⟨faithful source known found, faithful⟩
  · refine ⟨rfl, fun other known found => ?_⟩
    by_cases same : other = source
    · subst same
      simpa using found.symm
    · rw [Record.find?_insert_of_ne _ same] at found
      exact faithful other known found

theorem Faithful.evaluate (faithful : cache.Faithful) (source : String) (scope : Scope)
    (args : List Value) :
    (cache.evaluate source scope args).1 =
        (Program.compile? source).bind (fun program => program.run? scope args) ∧
      (cache.evaluate source scope args).2.Faithful := by
  obtain ⟨compiled, kept⟩ := faithful.program source
  exact ⟨congrArg (·.bind fun program => program.run? scope args) compiled, kept⟩

end Script.Cache

/-! ## Notes -/

/-- Whether a kind of entry is about a limit of the guard. -/
def DiagnosticKind.isLimit : DiagnosticKind → Bool
  | depthExceeded | frameBudgetExceeded => true
  | _ => false

/-- Something written into a journal. -/
inductive Note where
  /-- An entry that is made once for each site. -/
  | once (kind : DiagnosticKind) (site message : String)
  | each (kind : DiagnosticKind) (site message : String)

namespace Note

/-- What a note is about. -/
def kind : Note → DiagnosticKind
  | once kind _ _ | each kind _ _ => kind

/-- Writes a note. -/
def write : Note → Diagnostics → Diagnostics
  | once kind site message, log => log.warnOnce kind site message
  | each kind site message, log => log.record kind site message

/-- Writes notes in order. -/
def writeAll (notes : List Note) (log : Diagnostics) : Diagnostics :=
  notes.foldl (fun log note => note.write log) log

theorem writeAll_append (first second : List Note) (log : Diagnostics) :
    writeAll (first ++ second) log = writeAll second (writeAll first log) := by
  simp only [writeAll, List.foldl_append]

end Note

namespace Logged

variable {α β : Type}

/-- The act has this result and writes these notes, whatever has been written before. -/
def Writes (act : Logged α) (result : α) (notes : List Note) : Prop :=
  ∀ j : Journal, j.scripts.Faithful → ∃ scripts : Script.Cache, scripts.Faithful ∧
    act.run j = (result, { toDiagnostics := Note.writeAll notes j.toDiagnostics, scripts })

/-- The act has one result and writes one list of notes, all of them of such kinds. -/
def Confined (kinds : DiagnosticKind → Prop) (act : Logged α) : Prop :=
  ∃ result notes, act.Writes result notes ∧ ∀ note ∈ notes, kinds note.kind

/-- The act has one result and writes one list of notes, none of them about a limit. -/
def Steady (act : Logged α) : Prop :=
  ∃ result notes, act.Writes result notes ∧ ∀ note ∈ notes, note.kind.isLimit = false

/-- The result of an act that is done first of all. -/
def result (act : Logged α) : α :=
  (act.run .empty).1

theorem writes_pure (a : α) : Writes (pure a) a [] :=
  fun j faithful => ⟨j.scripts, faithful, rfl⟩

theorem Writes.bind {act : Logged α} {next : α → Logged β} {a : α} {b : β}
    {first second : List Note}
    (writes : act.Writes a first) (writesNext : (next a).Writes b second) :
    (act >>= next).Writes b (first ++ second) := by
  intro j faithful
  obtain ⟨scripts, kept, run⟩ := writes j faithful
  let written : Journal := { toDiagnostics := Note.writeAll first j.toDiagnostics, scripts }
  obtain ⟨last, keptLast, runNext⟩ := writesNext written kept
  refine ⟨last, keptLast, ?_⟩
  rw [Note.writeAll_append, StateT.run_bind, run]
  exact runNext

variable {kinds : DiagnosticKind → Prop}

namespace Confined

theorem pure (a : α) : Confined kinds (pure a) :=
  ⟨a, [], writes_pure a, nofun⟩

theorem bind {act : Logged α} {next : α → Logged β} (confined : act.Confined kinds)
    (confinedNext : ∀ a, (next a).Confined kinds) : (act >>= next).Confined kinds := by
  obtain ⟨a, first, writes, within⟩ := confined
  obtain ⟨b, second, writesNext, withinNext⟩ := confinedNext a
  exact ⟨b, first ++ second, writes.bind writesNext,
    List.forall_mem_append.2 ⟨within, withinNext⟩⟩

end Confined

theorem confined_warnOnce {kind : DiagnosticKind} (site message : String) (allowed : kinds kind) :
    Confined kinds (warnOnce kind site message) :=
  ⟨(), [.once kind site message], fun j faithful => ⟨j.scripts, faithful, rfl⟩,
    List.forall_mem_singleton.2 allowed⟩

theorem confined_record {kind : DiagnosticKind} (site message : String) (allowed : kinds kind) :
    Confined kinds (record kind site message) :=
  ⟨(), [.each kind site message], fun j faithful => ⟨j.scripts, faithful, rfl⟩,
    List.forall_mem_singleton.2 allowed⟩

theorem confined_script (source : String) (scope : Scope) (args : List Value) :
    Confined kinds (script source scope args) := by
  refine ⟨(Script.Program.compile? source).bind fun program => program.run? scope args, [],
    fun j faithful => ?_, nofun⟩
  obtain ⟨result, kept⟩ := faithful.evaluate source scope args
  exact ⟨(j.scripts.evaluate source scope args).2, kept, by rw [← result]; rfl⟩

theorem Confined.steady {act : Logged α}
    (confined : act.Confined fun kind => kind.isLimit = false) : act.Steady :=
  confined

theorem steady_warnOnce {kind : DiagnosticKind} (site message : String)
    (harmless : kind.isLimit = false) : Steady (warnOnce kind site message) :=
  Confined.steady (confined_warnOnce site message harmless)

theorem steady_pure (a : α) : Steady (pure a) :=
  Confined.steady (.pure a)

namespace Steady

variable {act : Logged α} {next : α → Logged β}

theorem bind (steady : act.Steady) (steadyNext : ∀ a, (next a).Steady) : (act >>= next).Steady :=
  Confined.steady (.bind steady steadyNext)

/-- The result is the same whatever has been written before. -/
theorem run_fst (steady : act.Steady) {j : Journal} (faithful : j.scripts.Faithful) :
    (act.run j).1 = act.result := by
  obtain ⟨a, notes, writes, -⟩ := steady
  obtain ⟨_, -, run⟩ := writes j faithful
  obtain ⟨_, -, runFirst⟩ := writes .empty Script.Cache.faithful_empty
  rw [result, run, runFirst]

/-- What comes second has its own result, whatever the first act has written. -/
theorem result_bind (steady : act.Steady) (steadyNext : (next act.result).Steady) :
    (act >>= next).result = (next act.result).result := by
  obtain ⟨a, notes, writes, -⟩ := steady
  obtain ⟨scripts, kept, run⟩ := writes .empty Script.Cache.faithful_empty
  let written : Journal :=
    { toDiagnostics := Note.writeAll notes Journal.empty.toDiagnostics, scripts }
  have faithful : written.scripts.Faithful := kept
  have same : act.result = a := congrArg Prod.fst run
  rw [← steadyNext.run_fst faithful, same, result, StateT.run_bind, run]
  rfl

theorem result_bind_pure (steady : act.Steady) (f : α → β) :
    (act >>= fun a => pure (f a)).result = f act.result :=
  steady.result_bind (steady_pure _)

end Steady

end Logged

open Logged (Confined Steady)

variable {kinds : DiagnosticKind → Prop}

/-- Acts that write notes of some kinds only are composed of such acts. -/
theorem Logged.confined_composes (kinds : DiagnosticKind → Prop) :
    Logged.Composes kinds fun x _ => Confined kinds x where
  pure := .pure
  bind := .bind
  warnOnce site message allowed := confined_warnOnce site message allowed
  script := confined_script

theorem Logged.confined_develops (kinds : DiagnosticKind → Prop)
    (undefined : kinds .undefinedBinding) (devMode other : Bool) :
    Logged.Develops devMode other fun x _ => Confined kinds x := by
  intro site message
  rw [recordUndefined]
  split
  · exact confined_record site message undefined
  · exact .pure _

/-- What is not about a limit. -/
theorem Logged.steady_composes :
    Logged.Composes (fun kind => kind.isLimit = false) fun x _ => Steady x :=
  confined_composes _

theorem Logged.steady_develops (devMode other : Bool) :
    Logged.Develops devMode other fun x _ => Steady x :=
  confined_develops (fun kind => kind.isLimit = false) rfl devMode other

/-! ## Expressions and templates -/

namespace Template

variable {template : String}

theorem Allowed.interpolate (allowed : Allowed kinds template) (scope : Scope) :
    Confined kinds (interpolate scope template) :=
  (Logged.confined_composes kinds).interpolate allowed scope

/-- What is written about expressions is not about a limit. -/
theorem allowed_steady (template : String) :
    Allowed (fun kind => kind.isLimit = false) template :=
  fun _ _ _ => rfl

variable (scope : Scope)

theorem steady_interpolate (template : String) : Steady (interpolate scope template) :=
  Logged.steady_composes.interpolate (allowed_steady template) scope

theorem steady_valueOf (declared : Json) : Steady (valueOf scope declared) := by
  cases declared with
  | str template => exact Logged.steady_composes.valueOfText (allowed_steady template) scope
  | null | bool | num | arr | obj => exact Logged.steady_pure _

theorem steady_recordOf (declared : Record Json) : Steady (recordOf scope declared) :=
  Logged.steady_composes.recordOf scope fun template _ => allowed_steady template

end Template

/-! ## Bindings -/

namespace Binding

/-- What is written about a transform is not about a limit. -/
theorem allowed_steady (b : Binding) : b.Allowed fun kind => kind.isLimit = false :=
  fun _ => rfl

theorem steady_resolve (devMode : Bool) (scope : Scope) (b : Binding) :
    Steady (b.resolve devMode scope) :=
  Logged.steady_composes.resolve (Logged.steady_develops devMode devMode) b.allowed_steady scope

end Binding

/-! ## Components -/

namespace Component

variable {c : Component}

/-- What is written about the properties of a component is about undefined bindings, and about
expressions as far as that is allowed. -/
theorem confined_resolveProps (undefined : kinds .undefinedBinding)
    (templates : ∀ template ∈ c.templates, Template.Allowed kinds template)
    (bindings : ∀ b ∈ c.allBindings, b.Allowed kinds) (devMode : Bool) (scope : Scope) :
    Confined kinds (c.resolveProps devMode scope) :=
  (Logged.confined_composes kinds).resolveProps
    (Logged.confined_develops kinds undefined devMode devMode) templates bindings scope

theorem confined_outcome (allowed : ∀ condition ∈ c.conditions, Expr.Allowed kinds condition)
    (scope : Scope) : Confined kinds (c.outcome scope) :=
  (Logged.confined_composes kinds).outcome allowed scope

section Steady

variable (devMode : Bool) (scope : Scope) (c : Component)

theorem steady_applyBindings (bindings : Record Binding) (props : Record Json) :
    Steady (applyBindings devMode scope bindings props) :=
  Logged.steady_composes.applyBindings (Logged.steady_develops devMode devMode)
    (fun b _ => b.allowed_steady) scope props

theorem steady_applyDataBinding (props : Record Json) :
    Steady (c.applyDataBinding devMode scope props) :=
  Logged.steady_composes.applyDataBinding (Logged.steady_develops devMode devMode)
    (fun b _ => b.allowed_steady) scope props

theorem steady_applyClassName (props : Record Json) : Steady (c.applyClassName scope props) :=
  Logged.steady_composes.applyClassName (fun template _ => Template.allowed_steady template) scope
    props

theorem steady_applyStyle (props : Record Json) : Steady (c.applyStyle scope props) :=
  Logged.steady_composes.applyStyle (fun _ _ template _ => Template.allowed_steady template) scope
    props

theorem steady_resolveProps : Steady (c.resolveProps devMode scope) := by
  apply Confined.steady
  apply confined_resolveProps
  · rfl
  · exact fun template _ => Template.allowed_steady template
  · exact fun b _ => b.allowed_steady

end Steady

theorem steady_outcome (scope : Scope) (c : Component) : Steady (c.outcome scope) := by
  apply Confined.steady
  apply confined_outcome
  exact fun _ _ _ => rfl

end Component

namespace Loop

variable {l : Loop}

theorem confined_expand (undefined : kinds .undefinedBinding) (other : kinds .loopSourceNotArray)
    (allowed : ∀ condition, l.condition = some condition → Expr.Allowed kinds condition)
    (source : l.source.Allowed kinds) (devMode : Bool) (scope : Scope) :
    Confined kinds (l.expand devMode scope) :=
  (Logged.confined_composes kinds).expand (Logged.confined_develops kinds undefined devMode devMode)
    other allowed source scope

theorem steady_expand (devMode : Bool) (scope : Scope) (l : Loop) :
    Steady (l.expand devMode scope) := by
  apply Confined.steady
  apply confined_expand
  · rfl
  · rfl
  · exact fun _ _ _ => rfl
  · exact fun _ => rfl

end Loop

end UiDoc
