import MarkdownNodes.Proofs.Node.Walk
import MarkdownNodes.Proofs.Render.Styles
import MarkdownNodes.Proofs.Token.Composed

/-! The wording of inline tokens that are made by hand. Such a token carries the text of all it holds, put
together when it was made. The bare text of tokens is what they carry; the text of their nodes is gathered
from the innermost tokens. The two are the same, and formatting around the tokens changes neither. -/

namespace MarkdownNodes

namespace Token

theorem ownText_plain (t : Token) : t.plain.ownText = t.ownText := by
  rw [plain]
  split
  case isTrue h => exact (ownText_eq_textField h).symm
  case isFalse => rfl

theorem textOf_map_plain (ts : List Token) : textOf (ts.map plain) = textOf ts := by
  rw [textOf, textOf, List.map_map]
  exact congrArg String.join (List.map_congr_left fun t _ => ownText_plain t)

theorem admits_around (wrapper : Wrapper) (ts : List Token) : Place.inline.admits (wrapper.around ts) = true := by
  cases wrapper <;> rfl

theorem misfits_around (wrapper : Wrapper) (ts : List Token) :
    (wrapper.around ts).misfits .inline = misfitsOf .inline ts := by
  rw [misfits_of_admits (admits_around wrapper ts)]
  cases wrapper <;>
    simp [Wrapper.around, ofStrong, ofEm, ofDel, ofLink, inner, children, items, header, rows, innerPlace]

theorem Composed.admits {t : Token} (h : t.Composed) : Place.inline.admits t = true := by
  cases h with
  | wrap wrapper h => exact admits_around wrapper _
  | _ => rfl

theorem Composed.misfits_eq_nil {t : Token} (h : t.Composed) : t.misfits .inline = [] := by
  induction h with
  | wrap wrapper h ih =>
      rw [misfits_around, misfitsOf]
      exact List.flatMap_eq_nil_iff.mpr ih
  | _ =>
      rw [misfits_eq]
      rfl

end Token

namespace Node

theorem textChars_link (policy : Policy) (href : String) (title : Option String) (content : List Node) :
    textChars (policy.link href title content) = textCharsOf content := by
  rw [Policy.link]
  cases policy.cleanUrl href <;> rfl

end Node

namespace Renderer

/-- The nodes drawn for the token, among inline tokens, have the text that it carries. -/
def DrawsOwnText (policy : Policy) (t : Token) : Prop :=
  Node.textCharsOf (draw policy .inline t) = t.ownText.toList

theorem text_drawOf {policy : Policy} {ts : List Token} (h : ∀ t ∈ ts, DrawsOwnText policy t) :
    Node.text (drawOf policy .inline ts) = Token.textOf ts := by
  apply String.toList_injective
  rw [Node.text, String.toList_ofList, drawOf, Node.textCharsOf_flatMap, Token.toList_textOf]
  exact List.flatMap_congr h

/-- Formatting has the text of what it is put around, and so have links, also where the address is refused. -/
theorem textCharsOf_draw_around (policy : Policy) (wrapper : Token.Wrapper) (ts : List Token) :
    Node.textCharsOf (draw policy .inline (wrapper.around ts)) = Node.textCharsOf (drawOf policy .inline ts) := by
  rw [draw_eq]
  cases wrapper with
  | link href title => exact (List.append_nil _).trans (Node.textChars_link policy href title _)
  | _ => exact List.append_nil _

theorem drawsOwnText_of_composed (policy : Policy) {t : Token} (h : t.Composed) : DrawsOwnText policy t := by
  induction h with
  | wrap wrapper h ih =>
      rw [DrawsOwnText, textCharsOf_draw_around, Token.ownText_around, ← text_drawOf ih, Node.text,
        String.toList_ofList]
  | _ => exact List.append_nil _

theorem drawsOwnText_plain (policy : Policy) {t : Token} (h : Place.inline.admits t = true) :
    DrawsOwnText policy t.plain := by
  rw [Token.plain, if_pos h]
  exact List.append_nil _

/-- Both the rendering of the tokens as inline tokens and their bare text succeed, and both read as given. -/
structure Reads (r : Renderer) (ts : List Token) (s : String) : Prop where
  rendered : ∃ nodes, (r.renderInline ts).outcome = .ok nodes ∧ Node.text nodes = s
  bare : (r.bareText ts).outcome = .ok s

theorem reads_textOf (policy : Policy) (silent : Bool) {ts : List Token} (h : ∀ t ∈ ts, t.Composed) :
    (ofPolicy policy silent).Reads ts (Token.textOf ts) where
  rendered := by
    have hmisfits : Token.misfitsOf .inline ts = [] := List.flatMap_eq_nil_iff.mpr fun t ht => (h t ht).misfits_eq_nil
    have hrun := renderTokens_eq_settle policy .inline silent true ts
    rw [hmisfits, settle_nil] at hrun
    exact ⟨drawOf policy .inline ts, congrArg Run.outcome hrun, text_drawOf fun t ht =>
      drawsOwnText_of_composed policy (h t ht)⟩
  bare := by
    have hmisfits : Token.misfitsOf .inline (ts.map Token.plain) = [] := by
      rw [Token.misfitsOf_map_plain, List.map_eq_nil_iff, List.filter_eq_nil_iff]
      exact fun t ht => by simp [(h t ht).admits]
    have hdrawn : ∀ u ∈ ts.map Token.plain, DrawsOwnText policy u :=
      List.forall_mem_map.mpr fun t ht => drawsOwnText_plain policy (h t ht).admits
    rw [bareText, renderTokens_plain_eq_settle, Run.map_eq, settle_andThen_ok, hmisfits, settle_nil,
      text_drawOf hdrawn, Token.textOf_map_plain]
    rfl

/-- Inline tokens that are made by hand read the same as nodes and as bare text, by any policy: as the texts
they carry, in order. Strong text, emphasis, a deletion or a link around all of them makes no difference. -/
theorem composed_tokens_read_alike (policy : Policy) (silent : Bool) (ts : List Token) (h : ∀ t ∈ ts, t.Composed) :
    (ofPolicy policy silent).Reads ts (Token.textOf ts) ∧
      ∀ wrapper : Token.Wrapper, (ofPolicy policy silent).Reads [wrapper.around ts] (Token.textOf ts) := by
  refine ⟨reads_textOf policy silent h, fun wrapper => ?_⟩
  have hwrapped : ∀ t ∈ [wrapper.around ts], t.Composed := by
    rintro t (_ | ⟨_, ⟨⟩⟩)
    exact .wrap wrapper h
  have hreads := reads_textOf policy silent hwrapped
  rwa [Token.textOf_around] at hreads

/-- A break in a link with a hostile address, in strong text, and an escaped star. -/
def breakInHostileLink : List Token :=
  [.ofStrong [.ofText "a", .ofLink "javascript:x" none [.ofCodespan "b", .lineBreak]], .escape "\\*" "*"]

theorem composed_tokens_read_alike_of_break_in_hostile_link :
    (∀ t ∈ breakInHostileLink, t.Composed) ∧
      (ofPolicy {} false).Reads breakInHostileLink "ab*" ∧
      ∀ wrapper : Token.Wrapper, (ofPolicy {} false).Reads [wrapper.around breakInHostileLink] "ab*" := by
  have hlink : Token.Composed (.ofLink "javascript:x" none [.ofCodespan "b", .lineBreak]) := by
    refine .wrap (.link "javascript:x" none) (List.forall_mem_cons.mpr ⟨.codespan "b", ?_⟩)
    exact List.forall_mem_singleton.mpr .lineBreak
  have hcomposed : ∀ t ∈ breakInHostileLink, t.Composed := by
    refine List.forall_mem_cons.mpr ⟨.wrap .strong (List.forall_mem_cons.mpr ⟨.text "a", ?_⟩), ?_⟩
    · exact List.forall_mem_singleton.mpr hlink
    · exact List.forall_mem_singleton.mpr (.escape "\\*" "*")
  have htext : Token.textOf breakInHostileLink = "ab*" := by decide
  have hreads := composed_tokens_read_alike {} false breakInHostileLink hcomposed
  rw [htext] at hreads
  exact ⟨hcomposed, hreads⟩

end Renderer
end MarkdownNodes
