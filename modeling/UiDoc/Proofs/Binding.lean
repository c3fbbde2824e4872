import UiDoc.Binding.Resolution
import UiDoc.Proofs.Scope

/-!
# Bindings in parts

A binding in parts follows its path from where its source leads, and a binding that is a path does
the same in one go.  The two agree where the end of the source is outside of all brackets.
-/

namespace UiDoc.Binding

open UiDoc.Path (firstName)

/-- Recording that a binding is undefined changes nothing about its value. -/
theorem run_resolve_fst (devMode : Bool) (scope : Scope) (b : Binding) (j : Journal) :
    ((b.resolve devMode scope).run j).1 = ((b.value scope).run j).1 := by
  have recorded (v : Value) (k : Journal) : ((do
      if devMode && v.isNone then
        Logged.record .undefinedBinding b.describe (undefinedMessage scope)
      pure v : Logged Value).run k).1 = v := by
    cases devMode && v.isNone <;> rfl
  exact recorded _ _

variable {scope : Scope} {source path : String} {layer : Option SourceType}

/-- A source in the data and a path behind it are resolved like the path that joins them with a
point. -/
theorem resolve_joined (filled : source ≠ "") (trimmed : Text.trimText source = source)
    (closed : Path.Closed source)
    (shadowed : firstName source = "data" → scope.hasRoot "data" = true) (filledPath : path ≠ "")
    (trimmedPath : Text.trimText path = path) (data : layer.getD .data = .data) (devMode : Bool)
    (j k : Journal) :
    let parts : StructuredBinding := { source := source, sourceType := layer, path := path }
    let joined : Binding := .path (source ++ "." ++ path)
    (((Binding.structured parts).resolve devMode scope).run j).1 =
      ((joined.resolve devMode scope).run k).1 := by
  intro parts joined
  have base : parts.base scope = scope.lookup source := by
    have given : (some source).filter (· ≠ "") = some source := by simp [filled]
    rw [StructuredBinding.base, data, given]
  have untouched : parts.activeTransform = none := rfl
  have value : (Binding.structured parts).value scope = pure (parts.raw scope) := by
    rw [Binding.value, StructuredBinding.resolve, untouched]
  rw [run_resolve_fst, run_resolve_fst, value]
  change parts.raw scope = scope.lookup (source ++ "." ++ path)
  rw [Scope.lookup_joined filled trimmed closed shadowed filledPath trimmedPath,
    StructuredBinding.raw, base]
  rfl

/-- A key with a point and a bracket in it, and a source that ends with a point. -/
theorem resolve_joined_key :
    let list : Json := .arr [.null, .obj [("x", .int 1)]]
    let scope : Scope := { data := .obj [("o", .obj [("a.]", .obj [("list", list)])])] }
    let source := "o['a.]'].list."
    let path := "[ 1 ].x"
    let parts : StructuredBinding := { source := source, path := path }
    let joined : Binding := .path (source ++ "." ++ path)
    (source ≠ "" ∧ Text.trimText source = source ∧ Path.Closed source ∧
        (firstName source = "data" → scope.hasRoot "data" = true) ∧ path ≠ "" ∧
          Text.trimText path = path) ∧
      (((Binding.structured parts).resolve true scope).run .empty).1 =
        ((joined.resolve true scope).run .empty).1 := by
  intro list scope source path parts joined
  have filled : source ≠ "" := by decide
  have trimmed : Text.trimText source = source := by decide
  have closed : Path.Closed source := ⟨[], by decide⟩
  have shadowed : firstName source = "data" → scope.hasRoot "data" = true := by
    have name : firstName source ≠ "data" := by decide
    exact fun same => absurd same name
  have filledPath : path ≠ "" := by decide
  have trimmedPath : Text.trimText path = path := by decide
  exact ⟨⟨filled, trimmed, closed, shadowed, filledPath, trimmedPath⟩,
    resolve_joined filled trimmed closed shadowed filledPath trimmedPath rfl true _ _⟩

end UiDoc.Binding
