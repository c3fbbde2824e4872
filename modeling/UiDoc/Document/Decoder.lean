import UiDoc.Json.Decoder
import UiDoc.Json.Printer
import UiDoc.Document.Component
import UiDoc.Document.Manifest

/-!
# Reading documents

A value that may have one of several forms is read in the first form that fits it.
-/

namespace UiDoc

open Json
open Json.Decoder (nullable string list record object value bool word buffered orElse)

/-- The text of a condition, which may be written as a text or as a bare value. -/
def conditionText : Json → Option String
  | .str s => some s
  | .bool true => some "true"
  | .bool false => some "false"
  | .num n => some (String.ofList n.print)
  | _ => none

/-- Decodes a condition; what has no text is empty. -/
def conditionDecoder : Decoder String := fun mode d =>
  (value mode d).map fun v => (conditionText v).getD ""

/-- Decodes a condition that may be missing. -/
def optionalConditionDecoder : Decoder (Option String) := fun mode d =>
  (nullable value mode d).map fun v => v.bind conditionText

/-- Decodes in the first of two forms that fits. -/
def firstOf {α : Type} (first second : Decoder α) : Draft → Except ReadError α := fun d =>
  orElse (first .whole d) (second .whole d)

/-- Changes what is decoded. -/
def mapped {α β : Type} (decode : Decoder α) (f : α → β) : Decoder β := fun mode d =>
  (decode mode d).map f

namespace SourceType

/-- Decodes a layer. -/
def decoder : Decoder SourceType :=
  word ([data, bindings, state].map fun t => (t.name, t))

end SourceType

namespace Binding

/-- The form of a binding in parts. -/
def partsLayout : Decoder.Layout StructuredBinding where
  start := {}
  fields := [
    .optional "source" (nullable string) fun x b => { b with source := x },
    .optional "sourceType" (nullable SourceType.decoder) fun x b => { b with sourceType := x },
    .optional "path" (nullable string) fun x b => { b with path := x },
    .optional "transform" (nullable string) fun x b => { b with transform := x }]

/-- Decodes a binding. -/
def decoder : Decoder Binding :=
  buffered (firstOf (mapped string .path) (mapped partsLayout.decoder .structured))

end Binding

namespace Action

/-- The form of an action, which keeps fields of other names. -/
def layout : Decoder.Layout Action where
  start := {}
  fields := [
    .optional "type" string fun x a => { a with kind := x },
    .optional "id" (nullable string) fun x a => { a with id := x },
    .optional "params" (nullable object) fun x a => { a with params := x }]
  other := some fun name mode d =>
    (value mode d).map fun v a => { a with extra := a.extra.insert name v }

/-- Decodes an action. -/
def decoder : Decoder Action := layout.decoder

end Action

namespace EventDefinition

/-- The form of several actions. -/
def multiLayout : Decoder.Layout MultiAction where
  start := {}
  fields := [
    .mandatory "actions" (list Action.decoder) fun x m => { m with actions := x },
    .optional "payload" (nullable object) fun x m => { m with payload := x },
    .optional "condition" optionalConditionDecoder fun x m => { m with condition := x }]

/-- The form of one action. -/
def singleLayout : Decoder.Layout SingleAction where
  start := {}
  fields := [
    .mandatory "action" string fun x s => { s with action := x },
    .optional "payload" (nullable object) fun x s => { s with payload := x },
    .optional "condition" optionalConditionDecoder fun x s => { s with condition := x }]

/-- Decodes what is declared for an event. -/
def decoder : Decoder EventDefinition :=
  buffered fun d =>
    orElse (mapped string actionId .whole d)
      (firstOf (mapped multiLayout.decoder multi) (mapped singleLayout.decoder single) d)

end EventDefinition

/-- Decodes one definition or many. -/
def EventSpec.decoder : Decoder EventSpec :=
  buffered (firstOf (mapped (list EventDefinition.decoder) many)
    (mapped EventDefinition.decoder one))

namespace ListedHandler

/-- The form of a handler of the list form. -/
def layout : Decoder.Layout ListedHandler where
  start := {}
  fields := [
    .mandatory "event" string fun x h => { h with event := x },
    .optional "actions" (list Action.decoder) fun x h => { h with actions := x },
    .optional "action" (nullable string) fun x h => { h with action := x },
    .optional "payload" (nullable object) fun x h => { h with payload := x },
    .optional "condition" optionalConditionDecoder fun x h => { h with condition := x }]

end ListedHandler

/-- Decodes the events of a component. -/
def EventsField.decoder : Decoder EventsField :=
  buffered (firstOf (mapped (list ListedHandler.layout.decoder) handlers)
    (mapped (record EventSpec.decoder) byName))

namespace EventHandler

/-- The form of a handler. -/
def layout : Decoder.Layout EventHandler where
  start := {}
  fields := [
    .mandatory "event" string fun x h => { h with event := x },
    .mandatory "actions" (list Action.decoder) fun x h => { h with actions := x },
    .optional "condition" (nullable string) fun x h => { h with condition := x }]

/-- Decodes a handler. -/
def decoder : Decoder EventHandler := layout.decoder

end EventHandler

namespace Loop

/-- The form of a loop. -/
def layout : Decoder.Layout Loop where
  start := {}
  fields := [
    .optional "source" Binding.decoder fun x l => { l with source := x },
    .optional "itemVar" string fun x l => { l with itemVar := x },
    .optional "indexVar" (nullable string) fun x l => { l with indexVar := x },
    .optional "key" (nullable string) fun x l => { l with key := x },
    { name := "condition"
      alternative := some "conditional"
      read := fun mode d =>
        (optionalConditionDecoder mode d).map fun x l => { l with condition := x } }]

/-- Decodes a loop. -/
def decoder : Decoder Loop := layout.decoder

end Loop

/-- Decodes content, given how components are decoded. -/
def Content.decoderOf (component : Decoder Component) : Decoder Content :=
  buffered fun d =>
    orElse (mapped string .text .whole d)
      (firstOf (mapped (list component) .nodes) (mapped component .node) d)

/-- The branch that a declared value stands for. -/
def Branch.ofOption : Option Content → Branch
  | none => .nothing
  | some inner => .content inner

/-- The form of a conditional, given how components are decoded. -/
def Conditional.layoutOf (component : Decoder Component) : Decoder.Layout Conditional where
  start := { yes := .absent, no := .absent }
  fields := [
    .optional "if" conditionDecoder fun x c => { c with condition := x },
    .optional "then" (nullable (Content.decoderOf component))
      fun x c => { c with yes := .ofOption x },
    .optional "else" (nullable (Content.decoderOf component))
      fun x c => { c with no := .ofOption x }]

namespace Component

/-- The form of a component, given how the components inside of it are decoded. -/
def layoutOf (component : Decoder Component) : Decoder.Layout Component where
  start := {}
  fields := [
    .optional "id" string fun x c => { c with id := x },
    .optional "type" string fun x c => { c with kind := x },
    .optional "props" object fun x c => { c with props := x },
    .optional "className" (nullable string) fun x c => { c with className := x },
    .optional "style" (nullable object) fun x c => { c with style := x },
    .optional "bindings" (record Binding.decoder) fun x c => { c with bindings := x },
    .optional "dataBinding" (nullable Binding.decoder) fun x c => { c with dataBinding := x },
    .optional "events" (nullable EventsField.decoder) fun x c => { c with events := x },
    .optional "conditional" (nullable (Conditional.layoutOf component).decoder)
      fun x c => { c with conditional := x },
    .optional "loop" (nullable Loop.decoder) fun x c => { c with loop := x },
    .optional "children" (nullable (Content.decoderOf component))
      fun x c => { c with children := x }]

/-- Decodes a component of limited height. -/
def decoderBelow : Nat → Decoder Component
  | 0 => fun _ d => .error d.refuse
  | height + 1 => (layoutOf (decoderBelow height)).decoder

/-- Decodes a component. -/
def decoder : Decoder Component := fun mode d =>
  decoderBelow (d.height + 1) mode d

/-- Decodes a conditional. -/
def conditionalDecoder : Decoder Conditional := fun mode d =>
  (Conditional.layoutOf (decoderBelow (d.height + 1))).decoder mode d

/-- The component that a text stands for. -/
def ofText (text : String) : Except ReadError Component :=
  Json.decodeText decoder text

/-- The component that a value stands for. -/
def ofJson (v : Json) : Except ReadError Component :=
  Json.decode decoder v

end Component

namespace SourceTier

/-- Decodes a tier. -/
def decoder : Decoder SourceTier :=
  word ([primitive, ui, module, json, icon].map fun t => (t.name, t))

end SourceTier

/-- Decodes a deprecation. -/
def Deprecation.decoder : Decoder Deprecation :=
  buffered (firstOf (mapped bool flag) (mapped string notice))

namespace RegistryEntry

/-- The form of the declaration of a component type. -/
def layout : Decoder.Layout RegistryEntry where
  start := {}
  fields := [
    .mandatory "key" string fun x e => { e with key := x },
    .optional "exportName" string fun x e => { e with exportName := x },
    .optional "sourceTier" SourceTier.decoder fun x e => { e with sourceTier := x },
    .optional "loadPath" (nullable string) fun x e => { e with loadPath := x },
    .optional "wrapperRequired" bool fun x e => { e with wrapperRequired := x },
    .optional "wrapperComponent" (nullable string) fun x e => { e with wrapperComponent := x },
    .optional "deprecated" (nullable Deprecation.decoder) fun x e => { e with deprecated := x }]

/-- Decodes the declaration of a component type. -/
def decoder : Decoder RegistryEntry := layout.decoder

end RegistryEntry

namespace Manifest

/-- The form of a manifest. -/
def layout : Decoder.Layout Manifest where
  start := {}
  fields := [
    .optional "components" (list RegistryEntry.decoder) fun x m => { m with components := x },
    .optional "icons" (list string) fun x m => { m with icons := x }]

/-- Decodes a manifest. -/
def decoder : Decoder Manifest := layout.decoder

end Manifest

end UiDoc
