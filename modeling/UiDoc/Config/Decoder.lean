import UiDoc.Json.Decoder
import UiDoc.Config

/-!
# Reading and writing configurations

The cadence is written as an object with a `mode`, or as an array that starts with the mode.
-/

namespace UiDoc

open Json
open Json.Decoder (bool count value string each)

namespace TickCadence

/-- The modes of a cadence. -/
inductive Mode where
  | interval
  | perRender
  | manual
  deriving DecidableEq, Repr

/-- Decodes a mode. -/
def modeDecoder : Decoder Mode := fun mode d => do
  match ← string mode d with
  | "interval" => .ok .interval
  | "perRender" => .ok .perRender
  | "manual" => .ok .manual
  | _ => .error .mismatch

/-- What is known of a cadence before its mode is looked at: the mode and the other fields. -/
structure Parts where
  mode : Mode := .manual
  rest : List (Option String × Draft) := []

/-- The form of a cadence. -/
def layout : Decoder.Layout Parts where
  start := {}
  fields := [.mandatory "mode" modeDecoder fun x parts => { parts with mode := x }]
  other := some fun name mode d => do
    let _ ← value mode d
    .ok fun parts => { parts with rest := parts.rest ++ [(some name, d)] }

/-- The form of what an interval has besides its mode. -/
def intervalLayout : Decoder.Layout Nat where
  start := 0
  fields := [.mandatory "millis" count fun x _ => x]

/-- What must stand beside a mode that is all there is to a cadence: any fields, but no items. -/
def withoutItems (cadence : TickCadence) : Draft → Except ReadError TickCadence
  | .arr (_ :: _) _ => .error .mismatch
  | _ => .ok cadence

/-- The cadence of a mode and of what stands beside it. -/
def ofParts (mode : Mode) (rest : Draft) : Except ReadError TickCadence :=
  match mode with
  | .interval => (intervalLayout.decoder .whole rest).map interval
  | .perRender => withoutItems .perRender rest
  | .manual => withoutItems .manual rest

/-- Decodes a cadence. -/
def decoder : Decoder TickCadence := fun mode d =>
  match d with
  | .arr items ending => do
      let inner ← mode.enter
      match items with
      | [] => do
          Draft.closeWith ending
          .error .mismatch
      | first :: rest => do
          let chosen ← modeDecoder inner first
          let _ ← each (value inner) rest
          Draft.closeWith ending
          ofParts chosen (.arr rest .closed)
  | d => do
      let parts ← layout.decoder mode d
      ofParts parts.mode (.obj parts.rest .closed)

/-- The JSON form of a cadence. -/
def toJson : TickCadence → Json
  | .interval millis => .obj [("mode", .str "interval"), ("millis", .nat millis)]
  | .perRender => .obj [("mode", .str "perRender")]
  | .manual => .obj [("mode", .str "manual")]

end TickCadence

namespace Config

/-- The form of a configuration. -/
def layout : Decoder.Layout Config where
  start := {}
  fields := [
    .optional "maxDepth" count fun x c => { c with maxDepth := x },
    .optional "maxCallsPerTick" count fun x c => { c with maxCallsPerTick := x },
    .optional "maxFallbacksPerTick" count fun x c => { c with maxFallbacksPerTick := x },
    .optional "tick" TickCadence.decoder fun x c => { c with tick := x },
    .optional "devMode" bool fun x c => { c with devMode := x }]

/-- Decodes a configuration. -/
def decoder : Decoder Config := layout.decoder

/-- The configuration that a text stands for. -/
def ofText (text : String) : Except ReadError Config :=
  Json.decodeText decoder text

/-- The JSON form of a configuration. -/
def toJson (c : Config) : Json :=
  .obj [("maxDepth", .nat c.maxDepth), ("maxCallsPerTick", .nat c.maxCallsPerTick),
    ("maxFallbacksPerTick", .nat c.maxFallbacksPerTick), ("tick", c.tick.toJson),
    ("devMode", .bool c.devMode)]

end Config

end UiDoc
