import MarkdownNodes.Node.Basic
import MarkdownNodes.Text.Entity

/-! Render nodes written as HTML. Text and attribute values are escaped and trusted HTML is not; a
fragment leaves no trace of its own, and an element that HTML keeps empty is written without content
and without an end tag. -/

namespace MarkdownNodes.Node

/-- The elements that HTML keeps empty. -/
def emptyTags : List (List Char) :=
  ["area", "base", "br", "col", "embed", "hr", "img", "input", "link", "meta", "param", "source",
    "track", "wbr"].map String.toList

/-- Lower case, as far as a name of ASCII letters can tell: besides the capital letters only the
Kelvin sign (U+212A) has an ASCII letter for its lower case. -/
def lowerChar (c : Char) : Char := if c = '\u212a' then 'k' else c.toLower

/-- The tag, in lower case, is one of an element that is kept empty. -/
def staysEmpty (tag : String) : Bool := emptyTags.contains (tag.toList.map lowerChar)

/-- An attribute inside a start tag, with the space before it. A flag that is set is a bare name, and
one that is not set is left out. -/
def attrChars : String × AttrValue → List Char
  | (_, .bool false) => []
  | (name, .bool true) => ' ' :: name.toList
  | (name, .int n) => ' ' :: name.toList ++ ['=', '"'] ++ (toString n).toList ++ ['"']
  | (name, .str s) => ' ' :: name.toList ++ ['=', '"'] ++ Text.escapeAll s.toList ++ ['"']

def startTag (tag : String) (attrs : Entries AttrValue) : List Char :=
  '<' :: tag.toList ++ attrs.flatMap attrChars ++ ['>']

def endTag (tag : String) : List Char := ['<', '/'] ++ tag.toList ++ ['>']

mutual

def htmlChars : Node → List Char
  | ⟨.fragment, _, content⟩ => contentHtmlChars content
  | ⟨.element tag, attrs, content⟩ =>
      startTag tag attrs ++ if staysEmpty tag then [] else contentHtmlChars content ++ endTag tag

def contentHtmlChars : Content Node → List Char
  | .empty => []
  | .text s => Text.escapeAll s.toList
  | .html s => s.toList
  | .nodes ns => htmlCharsOf ns

def htmlCharsOf : List Node → List Char
  | [] => []
  | n :: ns => htmlChars n ++ htmlCharsOf ns

end

/-- The nodes as HTML, one after the other. -/
def html (nodes : List Node) : String := String.ofList (htmlCharsOf nodes)

end MarkdownNodes.Node
