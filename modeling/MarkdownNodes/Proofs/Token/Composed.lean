import MarkdownNodes.Token.Make

/-! Inline tokens that are made by hand. Such a token carries the text of all it holds, put together when it was
made. -/

namespace MarkdownNodes.Token

/-- Formatting, and links, to put around inline tokens. -/
inductive Wrapper where
  | strong
  | em
  | del
  | link (href : String) (title : Option String)

def Wrapper.around : Wrapper → List Token → Token
  | .strong => ofStrong
  | .em => ofEm
  | .del => ofDel
  | .link href title => ofLink href title

/-- An inline token that is made by hand, as are all tokens inside; an escaped character may have any source. -/
inductive Composed : Token → Prop where
  | text (s : String) : Composed (ofText s)
  | codespan (s : String) : Composed (ofCodespan s)
  | lineBreak : Composed lineBreak
  | html (s : String) (block : Bool) : Composed (ofHtml s block)
  | escape (raw s : String) : Composed (.escape raw s)
  | wrap (wrapper : Wrapper) {ts : List Token} (h : ∀ t ∈ ts, Composed t) : Composed (wrapper.around ts)

theorem toList_textOf (ts : List Token) : (textOf ts).toList = ts.flatMap fun t => t.ownText.toList := by
  rw [textOf, String.toList_join, List.flatMap_map]

theorem ownText_around (wrapper : Wrapper) (ts : List Token) : (wrapper.around ts).ownText = textOf ts := by
  cases wrapper <;> rfl

@[simp] theorem textOf_around (wrapper : Wrapper) (ts : List Token) : textOf [wrapper.around ts] = textOf ts := by
  apply String.toList_injective
  rw [toList_textOf, List.flatMap_singleton, ownText_around]

end MarkdownNodes.Token
