import MarkdownNodes.Node.Basic
import MarkdownNodes.Render.Level
import MarkdownNodes.Text.Blank
import MarkdownNodes.Text.Entity
import MarkdownNodes.Text.Url
import MarkdownNodes.Token.Basic

/-! The nodes that the built-in rules make of tokens, given the nodes of their parts. How addresses are
treated and code is escaped is for the host to decide. -/

namespace MarkdownNodes

/-- What the host decides. -/
structure Policy where
  /-- Cleans an address, or refuses it. -/
  cleanUrl : String → Option String := Text.Url.clean
  /-- Escapes code for HTML; the flag asks for the escaping of every ampersand. -/
  escapeCode : String → Bool → String := Text.escapeHtml
  /-- Whether a task item starts with a checkbox. -/
  checkboxes : Bool := false

/-- The first word of a code block's information string, if the string starts with one. -/
def firstWord? (lang : Option String) : Option String :=
  match lang.map fun s => s.toList.takeWhile fun c => !Text.isBlank c with
  | some (c :: cs) => some (String.ofList (c :: cs))
  | _ => none

/-- The text with exactly one line end after its last other character. -/
def endingWithLine (s : String) : String :=
  String.ofList ((s.toList.reverse.dropWhile (· == '\n')).reverse ++ ['\n'])

namespace Policy

/-- A link; one whose address is refused is a span around the same content. An empty title is none. -/
def link (policy : Policy) (href : String) (title : Option String) (content : List Node) : Node :=
  match policy.cleanUrl href with
  | none => (Node.element "span").hold content
  | some url =>
      let a := (Node.element "a").set "href" (.str url)
      let a := match title with
        | some title => if title = "" then a else a.set "title" (.str title)
        | none => a
      a.hold content

/-- An image; one whose address is refused keeps it as it was written. -/
def image (policy : Policy) (href : String) (title : Option String) (alt : String) : Node :=
  let img := (Node.element "img").set "src" (.str ((policy.cleanUrl href).getD href))
  let img := match title with
    | some title => img.set "title" (.str title)
    | none => img
  img.set "alt" (.str alt)

/-- A block of code, with the language as a class. -/
def code (policy : Policy) (s : String) (lang : Option String) (escaped : Bool) : Node :=
  let body := endingWithLine s
  let inner := (Node.element "code").holdHtml (if escaped then body else policy.escapeCode body true)
  match firstWord? lang with
  | some word =>
      let cls : AttrValue := .str ("code--" ++ policy.escapeCode word true)
      ((Node.element "pre").set "class" cls).hold [inner.set "class" cls]
  | none => (Node.element "pre").hold [inner]

/-- The mark of a task item. -/
def checkbox (checked : Bool) : Node :=
  let box := ((Node.element "input").set "type" (.str "checkbox")).set "disabled" (.bool true)
  if checked then box.set "checked" (.str "") else box

/-- An item of a list, around its blocks. -/
def item (policy : Policy) (task : Bool) (checked : Option Bool) (blocks : List Node) : Node :=
  let marks := if task && policy.checkboxes then [checkbox (checked.getD false)] else []
  (Node.element "li").hold (marks ++ blocks)

end Policy

/-! The nodes on which the host has no say. -/

namespace Node

/-- A list, around its items; an ordered list that does not count from one says where it starts. -/
def ofList (ordered : Bool) (start : UInt32) (items : List Node) : Node :=
  let node := element (if ordered then "ol" else "ul")
  let node := if ordered && start != 1 then node.set "start" (.int start.toNat) else node
  node.hold items

/-- A cell of a table, in the header or in the body, around its inline content. -/
def ofCell (header : Bool) (align : Option Align) (content : List Node) : Node :=
  let node := element (if header then "th" else "td")
  let node := match align with
    | some align => node.set "align" (.str align.name)
    | none => node
  node.hold content

def ofRow (cells : List Node) : Node := (element "tr").hold cells

/-- A table, from the cells of its header and the rows of its body. -/
def ofTable (header rows : List Node) : Node :=
  (element "table").hold [(element "thead").hold [ofRow header], (element "tbody").hold rows]

def ofHeading (depth : UInt8) (content : List Node) : Node :=
  (element ("h" ++ toString depth.toNat)).hold content

def ofStrong (content : List Node) : Node :=
  ((element "strong").set "class" (.str "font-bold")).hold content

/-- What is shown of an unknown token, among blocks or among inline tokens. -/
def ofError (mode : Mode) (message : String) : Node :=
  let tag := match mode with
    | .block _ => "div"
    | .inline => "span"
  ((element tag).set "class" (.str "error")).holdText message

end MarkdownNodes.Node
