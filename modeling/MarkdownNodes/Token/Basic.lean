/-! The tokens of a parsed Markdown document. A token holds the source text it was read from, its kind's
own data, and its child tokens; a list holds items and a table holds cells, which are not tokens
themselves but hold tokens in turn. -/

namespace MarkdownNodes

/-- The alignment of a table column. -/
inductive Align where
  | left
  | center
  | right
  deriving DecidableEq

def Align.name : Align → String
  | .left => "left"
  | .center => "center"
  | .right => "right"

/-- A cell of a table, with inline tokens. Its own alignment is the one that shows. -/
structure Cell (τ : Type) where
  text : String := ""
  tokens : List τ := []
  header : Bool := false
  align : Option Align := none

/-- An item of a list, with block tokens. A task item starts with a check mark; a loose item is set
apart from its neighbours by blank lines, a tight one is not. -/
structure Item (τ : Type) where
  raw : String := ""
  text : String := ""
  task : Bool := false
  checked : Option Bool := none
  loose : Bool := false
  tokens : List τ := []

inductive Token where
  | space (raw : String)
  | hr (raw : String)
  | heading (raw : String) (depth : UInt8) (text : String) (tokens : List Token)
  /-- The information string `lang` begins with the language; `escaped` text is HTML already. -/
  | code (raw text : String) (lang : Option String) (escaped : Bool)
  | table (raw : String) (align : List (Option Align)) (header : List (Cell Token))
      (rows : List (List (Cell Token)))
  | blockquote (raw text : String) (tokens : List Token)
  | list (raw : String) (ordered : Bool) (start : UInt32) (loose : Bool) (items : List (Item Token))
  | listItem (item : Item Token)
  | html (raw text : String) (block pre : Bool)
  | paragraph (raw text : String) (tokens : List Token)
  /-- A run of text, or the inline tokens it was parsed into. -/
  | text (raw text : String) (tokens : Option (List Token)) (escaped : Bool)
  | escape (raw text : String)
  | link (raw href : String) (title : Option String) (text : String) (tokens : List Token)
  | image (raw href : String) (title : Option String) (text : String)
  | strong (raw text : String) (tokens : List Token)
  | em (raw text : String) (tokens : List Token)
  | codespan (raw text : String)
  | br (raw : String)
  | del (raw text : String) (tokens : List Token)
  /-- A token of a kind that only an extension knows. -/
  | custom (kind raw text : String) (tokens : List Token)

namespace Token

/-- The name of the token's kind. -/
def kind : Token → String
  | .space .. => "space"
  | .hr .. => "hr"
  | .heading .. => "heading"
  | .code .. => "code"
  | .table .. => "table"
  | .blockquote .. => "blockquote"
  | .list .. => "list"
  | .listItem .. => "list_item"
  | .html .. => "html"
  | .paragraph .. => "paragraph"
  | .text .. => "text"
  | .escape .. => "escape"
  | .link .. => "link"
  | .image .. => "image"
  | .strong .. => "strong"
  | .em .. => "em"
  | .codespan .. => "codespan"
  | .br .. => "br"
  | .del .. => "del"
  | .custom kind .. => kind

/-- The source text the token was read from. -/
def raw : Token → String
  | .space raw => raw
  | .hr raw => raw
  | .heading raw .. => raw
  | .code raw .. => raw
  | .table raw .. => raw
  | .blockquote raw .. => raw
  | .list raw .. => raw
  | .listItem item => item.raw
  | .html raw .. => raw
  | .paragraph raw .. => raw
  | .text raw .. => raw
  | .escape raw .. => raw
  | .link raw .. => raw
  | .image raw .. => raw
  | .strong raw .. => raw
  | .em raw .. => raw
  | .codespan raw .. => raw
  | .br raw => raw
  | .del raw .. => raw
  | .custom _ raw .. => raw

/-- The child tokens. A list and a table have none: theirs stand in items and cells. -/
def children : Token → List Token
  | .heading _ _ _ tokens => tokens
  | .blockquote _ _ tokens => tokens
  | .listItem item => item.tokens
  | .paragraph _ _ tokens => tokens
  | .text _ _ tokens _ => tokens.getD []
  | .link _ _ _ _ tokens => tokens
  | .strong _ _ tokens => tokens
  | .em _ _ tokens => tokens
  | .del _ _ tokens => tokens
  | .custom _ _ _ tokens => tokens
  | _ => []

/-- The items of a list. -/
def items : Token → List (Item Token)
  | .list _ _ _ _ items => items
  | _ => []

/-- The header cells of a table. -/
def header : Token → List (Cell Token)
  | .table _ _ header _ => header
  | _ => []

/-- The body rows of a table. -/
def rows : Token → List (List (Cell Token))
  | .table _ _ _ rows => rows
  | _ => []

/-- The text of an inline token with all formatting dropped; other tokens have none. -/
def ownText : Token → String
  | .text _ s _ _ => s
  | .escape _ s => s
  | .codespan _ s => s
  | .strong _ s _ => s
  | .em _ s _ => s
  | .del _ s _ => s
  | .link _ _ _ s _ => s
  | .image _ _ _ s => s
  | .html _ s _ _ => s
  | .custom _ _ s _ => s
  | _ => ""

end MarkdownNodes.Token
