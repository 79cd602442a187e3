import MarkdownNodes.Json.Basic
import MarkdownNodes.Token.Basic

/-! The form of tokens in JSON. Every kind of token has a list of named fields, each of a certain type
and with a default; a token is laid out as the values of its fields in that order. Items and cells are
laid out in the same way, but have no kind. -/

namespace MarkdownNodes

/-- The kinds of tokens that are known without an extension. -/
inductive BuiltIn where
  | space | hr | heading | code | table | blockquote | list | listItem | html | paragraph | text
  | escape | link | image | strong | em | codespan | br | del
  deriving DecidableEq

namespace BuiltIn

/-- All kinds, in the order in which they are numbered. -/
def all : List BuiltIn :=
  [.space, .hr, .heading, .code, .table, .blockquote, .list, .listItem, .html, .paragraph, .text,
    .escape, .link, .image, .strong, .em, .codespan, .br, .del]

def name : BuiltIn → String
  | .space => "space"
  | .hr => "hr"
  | .heading => "heading"
  | .code => "code"
  | .table => "table"
  | .blockquote => "blockquote"
  | .list => "list"
  | .listItem => "list_item"
  | .html => "html"
  | .paragraph => "paragraph"
  | .text => "text"
  | .escape => "escape"
  | .link => "link"
  | .image => "image"
  | .strong => "strong"
  | .em => "em"
  | .codespan => "codespan"
  | .br => "br"
  | .del => "del"

def ofName? (s : String) : Option BuiltIn := all.find? (·.name == s)

def ofNumber? (n : Nat) : Option BuiltIn := all[n]?

end BuiltIn

/-- The types of fields. -/
inductive FieldType where
  | text | flag
  /-- The depth of a heading: eight bits. -/
  | depth
  /-- The number of the first item of a list: 32 bits, with any text or null meaning one. -/
  | start
  | maybeText | maybeFlag | maybeAlign
  | aligns | tokens | maybeTokens | items | cells | rows
  deriving DecidableEq

/-- The value of a field. -/
inductive FieldValue where
  | text (s : String)
  | flag (b : Bool)
  | depth (n : UInt8)
  | start (n : UInt32)
  | maybeText (s : Option String)
  | maybeFlag (b : Option Bool)
  | maybeAlign (align : Option Align)
  | aligns (aligns : List (Option Align))
  | tokens (tokens : List Token)
  | maybeTokens (tokens : Option (List Token))
  | items (items : List (Item Token))
  | cells (cells : List (Cell Token))
  | rows (rows : List (List (Cell Token)))

/-- The value of a field that is left out. -/
def FieldType.default : FieldType → FieldValue
  | .text => .text ""
  | .flag => .flag false
  | .depth => .depth 0
  | .start => .start 1
  | .maybeText => .maybeText none
  | .maybeFlag => .maybeFlag none
  | .maybeAlign => .maybeAlign none
  | .aligns => .aligns []
  | .tokens => .tokens []
  | .maybeTokens => .maybeTokens none
  | .items => .items []
  | .cells => .cells []
  | .rows => .rows []

/-- Named and typed fields, in the order of the array form. -/
abbrev Schema := List (String × FieldType)

def BuiltIn.schema : BuiltIn → Schema
  | .space | .hr | .br => [("raw", .text)]
  | .heading => [("raw", .text), ("depth", .depth), ("text", .text), ("tokens", .tokens)]
  | .code => [("raw", .text), ("text", .text), ("lang", .maybeText), ("escaped", .flag)]
  | .table => [("raw", .text), ("align", .aligns), ("header", .cells), ("rows", .rows)]
  | .list => [("raw", .text), ("ordered", .flag), ("start", .start), ("loose", .flag), ("items", .items)]
  | .listItem =>
      [("raw", .text), ("text", .text), ("task", .flag), ("checked", .maybeFlag), ("loose", .flag),
        ("tokens", .tokens)]
  | .html => [("raw", .text), ("text", .text), ("block", .flag), ("pre", .flag)]
  | .text => [("raw", .text), ("text", .text), ("tokens", .maybeTokens), ("escaped", .flag)]
  | .escape | .codespan => [("raw", .text), ("text", .text)]
  | .link =>
      [("raw", .text), ("href", .text), ("title", .maybeText), ("text", .text), ("tokens", .tokens)]
  | .image => [("raw", .text), ("href", .text), ("title", .maybeText), ("text", .text)]
  | .blockquote | .paragraph | .strong | .em | .del =>
      [("raw", .text), ("text", .text), ("tokens", .tokens)]

/-- An item has the fields of the token that holds one. -/
def Item.schema : Schema := BuiltIn.listItem.schema

def Cell.schema : Schema :=
  [("text", .text), ("tokens", .tokens), ("header", .flag), ("align", .maybeAlign)]

/-- What stands for the kind of a token: the name or the number of a built-in kind, or any other name. -/
inductive Tag where
  | builtIn (kind : BuiltIn)
  | custom (kind : String)
  deriving DecidableEq

def Tag.ofJson? : Json → Option Tag
  | .str s =>
      match BuiltIn.ofName? s with
      | some kind => some (.builtIn kind)
      | none => some (.custom s)
  | .int n => if 0 ≤ n then (BuiltIn.ofNumber? n.toNat).map .builtIn else none
  | _ => none

def Tag.schema : Tag → Schema
  | .builtIn kind => kind.schema
  | .custom _ => [("raw", .text), ("text", .text), ("tokens", .tokens)]

def Item.ofFields? : List FieldValue → Option (Item Token)
  | [.text raw, .text text, .flag task, .maybeFlag checked, .flag loose, .tokens tokens] =>
      some { raw, text, task, checked, loose, tokens }
  | _ => none

def Cell.ofFields? : List FieldValue → Option (Cell Token)
  | [.text text, .tokens tokens, .flag header, .maybeAlign align] => some { text, tokens, header, align }
  | _ => none

/-- The token of a kind with the given field values; none if they do not fit the kind's schema. -/
def Tag.token? : Tag → List FieldValue → Option Token
  | .builtIn .space, [.text raw] => some (.space raw)
  | .builtIn .hr, [.text raw] => some (.hr raw)
  | .builtIn .heading, [.text raw, .depth depth, .text s, .tokens tokens] =>
      some (.heading raw depth s tokens)
  | .builtIn .code, [.text raw, .text s, .maybeText lang, .flag escaped] => some (.code raw s lang escaped)
  | .builtIn .table, [.text raw, .aligns align, .cells header, .rows rows] =>
      some (.table raw align header rows)
  | .builtIn .blockquote, [.text raw, .text s, .tokens tokens] => some (.blockquote raw s tokens)
  | .builtIn .list, [.text raw, .flag ordered, .start start, .flag loose, .items items] =>
      some (.list raw ordered start loose items)
  | .builtIn .listItem, fields => (Item.ofFields? fields).map .listItem
  | .builtIn .html, [.text raw, .text s, .flag block, .flag pre] => some (.html raw s block pre)
  | .builtIn .paragraph, [.text raw, .text s, .tokens tokens] => some (.paragraph raw s tokens)
  | .builtIn .text, [.text raw, .text s, .maybeTokens tokens, .flag escaped] =>
      some (.text raw s tokens escaped)
  | .builtIn .escape, [.text raw, .text s] => some (.escape raw s)
  | .builtIn .link, [.text raw, .text href, .maybeText title, .text s, .tokens tokens] =>
      some (.link raw href title s tokens)
  | .builtIn .image, [.text raw, .text href, .maybeText title, .text s] => some (.image raw href title s)
  | .builtIn .strong, [.text raw, .text s, .tokens tokens] => some (.strong raw s tokens)
  | .builtIn .em, [.text raw, .text s, .tokens tokens] => some (.em raw s tokens)
  | .builtIn .codespan, [.text raw, .text s] => some (.codespan raw s)
  | .builtIn .br, [.text raw] => some (.br raw)
  | .builtIn .del, [.text raw, .text s, .tokens tokens] => some (.del raw s tokens)
  | .custom kind, [.text raw, .text s, .tokens tokens] => some (.custom kind raw s tokens)
  | _, _ => none

end MarkdownNodes
