import MarkdownNodes.Json.Basic
import MarkdownNodes.Node.Basic

/-! Render nodes as JSON values: an object of kind, attributes and content, where kind and content name
their variant in a `type` field. -/

namespace MarkdownNodes.Node

def Kind.toJson : Kind → Json
  | .element tag => .obj [("type", .str "element"), ("tag", .str tag)]
  | .fragment => .obj [("type", .str "fragment")]

end Node

def AttrValue.toJson : AttrValue → Json
  | .str s => .str s
  | .int n => .int n
  | .bool b => .bool b

namespace Node

mutual

def toJson : Node → Json
  | ⟨kind, attrs, content⟩ =>
      .obj [("kind", kind.toJson), ("attrs", .obj (attrs.map fun (name, value) => (name, value.toJson))),
        ("children", contentToJson content)]

def contentToJson : Content Node → Json
  | .empty => .obj [("type", .str "empty")]
  | .text s => .obj [("type", .str "text"), ("value", .str s)]
  | .html s => .obj [("type", .str "html"), ("value", .str s)]
  | .nodes ns => .obj [("type", .str "nodes"), ("value", .arr (toJsonList ns))]

def toJsonList : List Node → List Json
  | [] => []
  | n :: ns => toJson n :: toJsonList ns

end

end MarkdownNodes.Node
