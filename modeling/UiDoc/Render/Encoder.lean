import UiDoc.Document.Encoder
import UiDoc.Render.Node

/-!
# The JSON form of rendered nodes
-/

namespace UiDoc

open Json (field? textField listField)

/-- The JSON form of a diagnostic entry. -/
def Diagnostic.toJson (d : Diagnostic) : Json :=
  .obj [("kind", .str d.kind.name), ("site", .str d.site), ("message", .str d.message)]

/-- The JSON form of diagnostic entries, in their order. -/
def Diagnostics.toJson (log : Diagnostics) : Json :=
  .arr (log.entries.map Diagnostic.toJson)

/-- The JSON form of what a type stands for; a definition is left out. -/
def Renderable.toJson : Renderable → Json
  | .element tag tier =>
      .obj [("kind", .str "element"), ("tag", .str tag), ("tier", .str tier.name)]
  | .composite name _ => .obj [("kind", .str "composite"), ("name", .str name)]
  | .icon name => .obj [("kind", .str "icon"), ("name", .str name)]

/-- The JSON form of a bound handler; its variables are left out. -/
def BoundHandler.toJson (h : BoundHandler) : Json :=
  .obj ([("nodeId", .str h.nodeId), ("event", .str h.handler.event), ("hostName", .str h.hostName),
      ("actions", Action.listToJson h.handler.actions)] ++
    field? "condition" Json.str h.handler.condition)

mutual

/-- The fields of an element. -/
def Element.toFields : Element → List (String × Json)
  | ⟨key, id, kind, renderable, props, handlers, children⟩ =>
      [("key", .str key)] ++ textField "id" id ++
        [("type", .str kind), ("renderable", renderable.toJson), ("props", .obj props)] ++
        listField "handlers" (handlers.map BoundHandler.toJson) ++
        listField "children" (Node.listToJson children)
termination_by structural e => e

/-- The JSON form of a node. -/
def Node.toJson : Node → Json
  | .element e => .obj (("kind", .str "element") :: e.toFields)
  | .text text => .obj [("kind", .str "text"), ("text", .str text)]
  | .fragment key children =>
      .obj [("kind", .str "fragment"), ("key", .str key),
        ("children", .arr (Node.listToJson children))]
  | .fallback nodeId depth =>
      .obj [("kind", .str "fallback"), ("nodeId", .str nodeId), ("depth", .nat depth)]
termination_by structural n => n

/-- The JSON forms of nodes. -/
def Node.listToJson : List Node → List Json
  | [] => []
  | n :: rest => n.toJson :: Node.listToJson rest
termination_by structural list => list

end

/-- The JSON form of the outcome of a pass. -/
def Output.toJson (o : Output) : Json :=
  .obj [("nodes", .arr (Node.listToJson o.nodes)), ("status", .str o.status.name),
    ("diagnostics", o.diagnostics.toJson)]

end UiDoc
