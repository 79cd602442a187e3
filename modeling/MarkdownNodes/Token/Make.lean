import MarkdownNodes.Token.Basic

/-! Making tokens by hand. What is made is consistent: the source text is a Markdown spelling of the
token, and the text of a container is that of its children put together. -/

namespace MarkdownNodes

/-- The texts of the tokens, in order. -/
def Token.textOf (tokens : List Token) : String := String.join (tokens.map Token.ownText)

/-- The sources of the tokens, in order. -/
def Token.rawOf (tokens : List Token) : String := String.join (tokens.map Token.raw)

namespace Token

def ofText (s : String) : Token := .text s s none false

def ofParagraph (tokens : List Token) : Token := .paragraph (rawOf tokens) (textOf tokens) tokens

def ofHeading (depth : UInt8) (tokens : List Token) : Token :=
  .heading (String.ofList (List.replicate depth.toNat '#') ++ " " ++ rawOf tokens) depth (textOf tokens) tokens

def ofBlockquote (tokens : List Token) : Token := .blockquote (rawOf tokens) (textOf tokens) tokens

def ofStrong (tokens : List Token) : Token := .strong ("**" ++ rawOf tokens ++ "**") (textOf tokens) tokens

def ofEm (tokens : List Token) : Token := .em ("*" ++ rawOf tokens ++ "*") (textOf tokens) tokens

def ofDel (tokens : List Token) : Token := .del ("~~" ++ rawOf tokens ++ "~~") (textOf tokens) tokens

def ofCodespan (s : String) : Token := .codespan ("`" ++ s ++ "`") s

def ofLink (href : String) (title : Option String) (tokens : List Token) : Token :=
  .link ("[" ++ rawOf tokens ++ "](" ++ href ++ ")") href title (textOf tokens) tokens

def ofImage (href : String) (title : Option String) (alt : String) : Token :=
  .image ("![" ++ alt ++ "](" ++ href ++ ")") href title alt

def lineBreak : Token := .br "  \n"

def blankLines : Token := .space "\n\n"

def thematicBreak : Token := .hr "---\n"

def ofHtml (html : String) (block : Bool) : Token := .html html html block false

/-- A custom token without children. -/
def ofCustom (kind text : String) : Token := .custom kind text text []

end Token

/-- A tight item that is no task. -/
def Item.ofTokens (tokens : List Token) : Item Token := { raw := Token.rawOf tokens, tokens }

/-- Makes an item a task item, checked or not. -/
def Item.asTask {τ : Type} (item : Item τ) (checked : Bool) : Item τ :=
  { item with task := true, checked := some checked }

/-- A list, which is loose if one of its items is. -/
def Token.ofItems (ordered : Bool) (start : UInt32) (items : List (Item Token)) : Token :=
  .list "" ordered start (items.any (·.loose)) items

def Cell.ofTokens (header : Bool) (tokens : List Token) : Cell Token :=
  { text := Token.textOf tokens, tokens, header }

/-- A table without alignments. -/
def Token.ofCells (header : List (List Token)) (rows : List (List (List Token))) : Token :=
  .table "" (header.map fun _ => none) (header.map (Cell.ofTokens true))
    (rows.map fun row => row.map (Cell.ofTokens false))

/-- Gives each cell of a row the alignment of its column; cells beyond the last column keep theirs. -/
def Cell.alignRow {τ : Type} : List (Option Align) → List (Cell τ) → List (Cell τ)
  | column :: columns, cell :: cells => { cell with align := column } :: alignRow columns cells
  | _, cells => cells

/-- Sets the alignments of a table's columns and with them those of its cells. -/
def Token.withAlignment (columns : List (Option Align)) : Token → Token
  | .table raw _ header rows =>
      .table raw columns (Cell.alignRow columns header) (rows.map (Cell.alignRow columns))
  | token => token

end MarkdownNodes
