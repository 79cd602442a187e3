import MarkdownNodes.Json.Basic
import MarkdownNodes.Proofs.Token.Fields
import Mathlib.Data.List.Forall2

/-! The spellings of tokens in JSON. A token may be spelled as an object, with its fields by name in any
order and among others, or as an array, with its fields in order. A field whose value is the default may
be left out of an object, and all fields from some point on out of an array. The parts of a token are
spelled one by one, each in either way. -/

namespace MarkdownNodes

/-- The numbers of the built-in kinds. -/
def BuiltIn.number : BuiltIn → Nat
  | .space => 0
  | .hr => 1
  | .heading => 2
  | .code => 3
  | .table => 4
  | .blockquote => 5
  | .list => 6
  | .listItem => 7
  | .html => 8
  | .paragraph => 9
  | .text => 10
  | .escape => 11
  | .link => 12
  | .image => 13
  | .strong => 14
  | .em => 15
  | .codespan => 16
  | .br => 17
  | .del => 18

/-- The type of a token is spelled as the name of its kind; a built-in kind may also be given by number. -/
inductive Token.TypeSpelledBy : Token → Json → Prop where
  | name (t : Token) : TypeSpelledBy t (.str t.kind)
  | number {t : Token} {kind : BuiltIn} (h : t.builtIn? = some kind) : TypeSpelledBy t (.int kind.number)

/-- An alignment is spelled as its name, alone or as the only field of an object, which is null or an
empty object. -/
inductive Align.SpelledBy : Option Align → Json → Prop where
  | absent : SpelledBy none .null
  | name (align : Align) : SpelledBy (some align) (.str align.name)
  | null (align : Align) : SpelledBy (some align) (.obj [(align.name, .null)])
  | empty (align : Align) : SpelledBy (some align) (.obj [(align.name, .obj [])])

mutual

inductive Token.SpelledBy : Token → Json → Prop where
  | object {t : Token} {type : Json} {members : List (String × Json)}
      (only : members.filter (·.1 == "type") = [("type", type)]) (htype : t.TypeSpelledBy type)
      (hfields : ∀ f ∈ t.fields, Field.NamedIn f members) : Token.SpelledBy t (.obj members)
  | array {t : Token} {type : Json} {values : List Json} (htype : t.TypeSpelledBy type)
      (hfields : Fields.InOrder (t.fields.map Prod.snd) values) : Token.SpelledBy t (.arr (type :: values))

/-- Items and cells are spelled like tokens, but for the type. -/
inductive Fields.SpelledBy : List (String × FieldValue) → Json → Prop where
  | object {fields : List (String × FieldValue)} {members : List (String × Json)}
      (hfields : ∀ f ∈ fields, Field.NamedIn f members) : Fields.SpelledBy fields (.obj members)
  | array {fields : List (String × FieldValue)} {values : List Json}
      (hfields : Fields.InOrder (fields.map Prod.snd) values) : Fields.SpelledBy fields (.arr values)

/-- A field of an object stands there once under its name, or goes without saying. -/
inductive Field.NamedIn : String × FieldValue → List (String × Json) → Prop where
  | given {name : String} {value : FieldValue} {v : Json} {members : List (String × Json)}
      (only : members.filter (·.1 == name) = [(name, v)]) (hvalue : FieldValue.SpelledBy value v) :
      Field.NamedIn (name, value) members
  | omitted {name : String} {value : FieldValue} {members : List (String × Json)}
      (absent : members.filter (·.1 == name) = []) (hvalue : value.IsDefault) : Field.NamedIn (name, value) members

/-- The fields of an array stand there one after the other, up to a point from which on they go without
saying. -/
inductive Fields.InOrder : List FieldValue → List Json → Prop where
  | omitted {values : List FieldValue} (hvalues : ∀ value ∈ values, value.IsDefault) : Fields.InOrder values []
  | given {value : FieldValue} {values : List FieldValue} {v : Json} {vs : List Json}
      (hvalue : FieldValue.SpelledBy value v) (hvalues : Fields.InOrder values vs) :
      Fields.InOrder (value :: values) (v :: vs)

inductive FieldValue.SpelledBy : FieldValue → Json → Prop where
  | text (s : String) : FieldValue.SpelledBy (.text s) (.str s)
  | flag (b : Bool) : FieldValue.SpelledBy (.flag b) (.bool b)
  | depth (n : UInt8) : FieldValue.SpelledBy (.depth n) (.int n.toNat)
  | start (n : UInt32) : FieldValue.SpelledBy (.start n) (.int n.toNat)
  | startText (s : String) : FieldValue.SpelledBy (.start 1) (.str s)
  | startNull : FieldValue.SpelledBy (.start 1) .null
  | someText (s : String) : FieldValue.SpelledBy (.maybeText (some s)) (.str s)
  | noText : FieldValue.SpelledBy (.maybeText none) .null
  | someFlag (b : Bool) : FieldValue.SpelledBy (.maybeFlag (some b)) (.bool b)
  | noFlag : FieldValue.SpelledBy (.maybeFlag none) .null
  | align {align : Option Align} {v : Json} (h : Align.SpelledBy align v) : FieldValue.SpelledBy (.maybeAlign align) v
  | aligns {columns : List (Option Align)} {vs : List Json} (h : List.Forall₂ Align.SpelledBy columns vs) :
      FieldValue.SpelledBy (.aligns columns) (.arr vs)
  | tokens {ts : List Token} {vs : List Json} (h : List.Forall₂ Token.SpelledBy ts vs) :
      FieldValue.SpelledBy (.tokens ts) (.arr vs)
  | someTokens {ts : List Token} {vs : List Json} (h : List.Forall₂ Token.SpelledBy ts vs) :
      FieldValue.SpelledBy (.maybeTokens (some ts)) (.arr vs)
  | noTokens : FieldValue.SpelledBy (.maybeTokens none) .null
  | items {items : List (Item Token)} {vs : List Json}
      (h : List.Forall₂ (fun item v => Fields.SpelledBy item.fields v) items vs) :
      FieldValue.SpelledBy (.items items) (.arr vs)
  | cells {cells : List (Cell Token)} {vs : List Json}
      (h : List.Forall₂ (fun cell v => Fields.SpelledBy cell.fields v) cells vs) :
      FieldValue.SpelledBy (.cells cells) (.arr vs)
  | rows {rows : List (List (Cell Token))} {vs : List Json} (h : List.Forall₂ Row.SpelledBy rows vs) :
      FieldValue.SpelledBy (.rows rows) (.arr vs)

inductive Row.SpelledBy : List (Cell Token) → Json → Prop where
  | cells {cells : List (Cell Token)} {vs : List Json}
      (h : List.Forall₂ (fun cell v => Fields.SpelledBy cell.fields v) cells vs) : Row.SpelledBy cells (.arr vs)

end

end MarkdownNodes
