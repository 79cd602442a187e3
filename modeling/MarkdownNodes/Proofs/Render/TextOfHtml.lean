import MarkdownNodes.Proofs.Node.TextOfHtml
import MarkdownNodes.Proofs.Render.Injection

/-! The text of rendered tokens. What the rules make of tokens without trusted HTML shows all of its text: the
names are plain, and there is nothing in the elements that stay empty. So the text of the nodes can be read off
what is written of them. -/

namespace MarkdownNodes

/-- The token is one whose rule writes trusted HTML: that of the token, or its code, escaped. -/
def Token.isHtmlOrCode : Token → Bool
  | .html .. | .code .. => true
  | _ => false

namespace Renderer

open Node

/-! ### The vocabulary of the rules -/

theorem plainName_of_all {names : List String}
    (h : (names.all fun name => name.toList.all fun c => !(['<', '>', '"', '\'', '&'].contains c)) = true)
    {name : String} (hname : name ∈ names) : PlainName name := by
  intro c hc
  have hchars := List.all_eq_true.mp h name hname
  simpa using List.all_eq_true.mp hchars c hc

theorem plainName_heading (depth : Nat) : PlainName ("h" ++ toString depth) := by
  intro c hc
  rw [String.toList_append, List.mem_append] at hc
  rcases hc with hc | hc
  · rw [List.mem_singleton.mp hc]
    decide
  · exact plain_int (Int.ofNat depth) c hc

/-- There are only plain names in the vocabulary of the rules. -/
theorem plainName_of_keeps {ts : List Token} {m : Node} (h : m.Keeps (vocabulary ts)) :
    (∀ tag, m.kind = .element tag → PlainName tag) ∧ ∀ name ∈ m.attrs.names, PlainName name := by
  constructor
  · intro tag hkind
    have htag := h.tag tag hkind
    split at htag
    · exact plainName_of_all (by decide) htag
    · rcases htag with htag | ⟨raw, depth, s, inner, -, rfl⟩
      · exact plainName_of_all (by decide) htag
      · exact plainName_heading depth.toNat
  · exact fun name hname => plainName_of_all (by decide) (h.attrs name hname)

/-! ### Nodes that are made -/

/-- A node that is made for a token without trusted HTML shows its text. -/
theorem showsText_of_made {policy : Policy} {t : Token} {m : Node} (ht : t.isHtmlOrCode = false)
    (h : Made policy t m) : m.ShowsText := by
  have hhtml : ∀ s, m.content ≠ .html s := by
    intro s hs
    rcases html_of_made h hs with ⟨raw, block, pre, rfl⟩ | ⟨raw, code, lang, escaped, rfl, -⟩ <;> cases ht
  have hkeeps : m.Keeps (vocabulary [t]) :=
    keeps_of_made_of_inert (by simp [Token.allOf, Token.mem_all_self]) (fun s hs => absurd hs (hhtml s)) h
  obtain ⟨htag, hattrs⟩ := plainName_of_keeps hkeeps
  exact ⟨htag, hattrs, hhtml, fun tag hkind hvoid => textChars_of_empty (keepsEmpty_of_made h tag hkind hvoid)⟩

/-- The text of nodes is what is left of their HTML when all tags are deleted and the entities are decoded, if they
have plain names, no trusted HTML, and no text in an element that stays empty. So it is for the nodes of every run
without extensions that succeeds over tokens without HTML and code; there, no element that stays empty has any
content. -/
theorem text_is_read_off_html (policy : Policy) (silent top : Bool) (place : Place) :
    (∀ ns : List Node, (∀ n ∈ allOf ns, n.ShowsText) →
      Text.decode (Text.withoutTags (html ns).toList) = (Node.text ns).toList) ∧
    ∀ (ts : List Token) (nodes : List Node), (∀ t ∈ Token.allOf ts, t.isHtmlOrCode = false) →
      ((ofPolicy policy silent).renderTokens (place.level top) ts).outcome = .ok nodes →
      (∀ m ∈ allOf nodes, m.ShowsText ∧ m.KeepsEmpty) ∧
        Text.decode (Text.withoutTags (html nodes).toList) = (Node.text nodes).toList := by
  refine ⟨fun ns => decode_withoutTags_html, fun ts nodes hts h => ?_⟩
  have hshows : ∀ m ∈ allOf nodes, m.ShowsText ∧ m.KeepsEmpty := by
    intro m hm
    obtain ⟨t, ht, hmade⟩ := made_of_mem_drawOf (eq_drawOf_of_ok h ▸ hm)
    exact ⟨showsText_of_made (hts t ht) hmade, keepsEmpty_of_made hmade⟩
  exact ⟨hshows, decode_withoutTags_html fun m hm => (hshows m hm).1⟩

/-- A link with a bracket in its title, beside a rule; and a quote with a break and with text that looks like a tag. -/
theorem text_is_read_off_html_of_brackets :
    Text.decode (Text.withoutTags
        (html [Policy.link {} "" (some ">") [span "1 < 2"], element "hr"]).toList) = "1 < 2".toList ∧
      ∃ nodes, ((ofPolicy {} false).renderTokens (Place.block.level true)
          [.blockquote "" "" [.paragraph "" "" [.text "" "<b>" none false, .br "", .text "" "&" none false]]]).outcome =
            .ok nodes ∧
        Text.decode (Text.withoutTags (html nodes).toList) = (Node.text nodes).toList := by
  have hlink : (Policy.link {} "" (some ">") [span "1 < 2"]).ShowsText :=
    @showsText_of_made {} (.link "" "" (some ">") "" []) _ rfl (.link _)
  have hspan : (span "1 < 2").ShowsText := @showsText_of_made {} (.escape "" "1 < 2") _ rfl (.span _ _)
  have hrule : (element "hr").ShowsText := @showsText_of_made {} (.hr "") _ rfl .hr
  constructor
  · refine (text_is_read_off_html {} false true .block).1
      [Policy.link {} "" (some ">") [span "1 < 2"], element "hr"] ?_
    show ∀ n ∈ [Policy.link {} "" (some ">") [span "1 < 2"], span "1 < 2", element "hr"], n.ShowsText
    simpa using ⟨hlink, hspan, hrule⟩
  · obtain ⟨nodes, h⟩ : ∃ nodes, ((ofPolicy {} false).renderTokens (Place.block.level true)
        [.blockquote "" "" [.paragraph "" "" [.text "" "<b>" none false, .br "", .text "" "&" none false]]]).outcome =
          .ok nodes := ⟨_, rfl⟩
    refine ⟨nodes, h, ((text_is_read_off_html {} false true .block).2 _ nodes ?_ h).2⟩
    simp [Token.allOf, Token.all_eq, Token.inner, Token.children, Token.items, Token.header, Token.rows,
      Token.isHtmlOrCode]

end Renderer
end MarkdownNodes
