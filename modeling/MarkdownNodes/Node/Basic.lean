import MarkdownNodes.Entries

/-! Render nodes: a description of elements that no particular view layer owns. A node is an element
with a tag or a fragment that groups its content; it has attributes, in the order in which they were
first set, and content. -/

namespace MarkdownNodes

inductive AttrValue where
  | str (s : String)
  | int (n : Int)
  | bool (b : Bool)
  deriving DecidableEq

/-- The text of an attribute value that is one. -/
def AttrValue.text? : AttrValue → Option String
  | .str s => some s
  | _ => none

inductive Node.Kind where
  | element (tag : String)
  /-- A group that shows nothing but its content. -/
  | fragment
  deriving DecidableEq

/-- What a node contains: nothing, text that is escaped when written, trusted HTML that is written as
it is, or nodes. -/
inductive Node.Content (ν : Type) where
  | empty
  | text (s : String)
  | html (s : String)
  | nodes (ns : List ν)

structure Node where
  kind : Node.Kind
  attrs : Entries AttrValue := []
  content : Node.Content Node := .empty

namespace Node

def element (tag : String) : Node := { kind := .element tag }

def fragment (nodes : List Node) : Node := { kind := .fragment, content := .nodes nodes }

/-- Sets an attribute. One that is present keeps its place. -/
def set (name : String) (value : AttrValue) (node : Node) : Node :=
  { node with attrs := node.attrs.set name value }

/-- Makes text the content of a node, whatever it contained. -/
def holdText (s : String) (node : Node) : Node := { node with content := .text s }

/-- Makes trusted HTML the content of a node. -/
def holdHtml (s : String) (node : Node) : Node := { node with content := .html s }

/-- Makes nodes the content of a node. -/
def hold (nodes : List Node) (node : Node) : Node := { node with content := .nodes nodes }

/-- A span of text. -/
def span (s : String) : Node := (element "span").holdText s

/-- Adds a node at the end; content other than nodes gives way to it. -/
def push (child node : Node) : Node :=
  match node.content with
  | .nodes ns => { node with content := .nodes (ns ++ [child]) }
  | _ => { node with content := .nodes [child] }

/-- The tag of an element. -/
def tag? (node : Node) : Option String :=
  match node.kind with
  | .element tag => some tag
  | .fragment => none

/-- The value of an attribute. -/
def attr? (node : Node) (name : String) : Option AttrValue := node.attrs.get? name

/-- The nodes inside; none if the content is of another kind. -/
def inner (node : Node) : List Node :=
  match node.content with
  | .nodes ns => ns
  | _ => []

/-- The text of a node that contains text. -/
def text? (node : Node) : Option String :=
  match node.content with
  | .text s => some s
  | _ => none

mutual

/-- The text of a node and everything inside; HTML counts as it is written. -/
def textChars : Node → List Char
  | ⟨_, _, content⟩ => contentTextChars content

def contentTextChars : Content Node → List Char
  | .empty => []
  | .text s => s.toList
  | .html s => s.toList
  | .nodes ns => textCharsOf ns

def textCharsOf : List Node → List Char
  | [] => []
  | n :: ns => textChars n ++ textCharsOf ns

end

/-- The text of the nodes, put together. -/
def text (nodes : List Node) : String := String.ofList (textCharsOf nodes)

/-- Two attribute lists hold the same values under the same names, in whatever order. -/
def sameAttrs (a b : Entries AttrValue) : Bool :=
  a.length == b.length && a.all fun (name, value) => b.get? name == some value

mutual

/-- The nodes are the same but for the order of attributes. -/
def same : Node → Node → Bool
  | ⟨kind, attrs, content⟩, ⟨kind', attrs', content'⟩ =>
      kind == kind' && sameAttrs attrs attrs' && sameContent content content'

def sameContent : Content Node → Content Node → Bool
  | .empty, .empty => true
  | .text s, .text s' => s == s'
  | .html s, .html s' => s == s'
  | .nodes ns, .nodes ns' => sameList ns ns'
  | _, _ => false

def sameList : List Node → List Node → Bool
  | [], [] => true
  | n :: ns, n' :: ns' => same n n' && sameList ns ns'
  | _, _ => false

end

end MarkdownNodes.Node
