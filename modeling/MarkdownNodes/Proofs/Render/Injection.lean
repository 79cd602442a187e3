import MarkdownNodes.Proofs.Node.Markup
import MarkdownNodes.Proofs.Render.Made

/-! No injection of markup. If a forest brings no HTML of its own, neither in HTML tokens nor in code that
is escaped already, then what is written of it is properly nested HTML in the vocabulary of the rules, and
everything its tokens say stands in it as inert text. -/

namespace MarkdownNodes

/-- The token brings HTML of its own, which is written as it is. -/
def Token.bringsHtml : Token → Bool
  | .html .. => true
  | .code _ _ _ escaped => escaped
  | _ => false

namespace Renderer

open Node

/-- The tags with an end tag that the rules write, besides those of headings. -/
def containerTags : List String :=
  ["p", "pre", "code", "table", "thead", "tbody", "tr", "th", "td", "blockquote", "ol", "ul", "li", "span",
    "div", "a", "strong", "em", "del"]

/-- The tags without an end tag that the rules write. -/
def voidTags : List String := ["input", "img", "br", "hr"]

/-- The attributes that the rules set. -/
def attrNames : List String :=
  ["href", "title", "src", "alt", "class", "align", "start", "type", "disabled", "checked"]

/-- What the rules may write of a forest; the headings are those of the forest. -/
def vocabulary (ts : List Token) : Vocabulary where
  container tag := tag ∈ containerTags ∨
    ∃ raw depth s inner, .heading raw depth s inner ∈ Token.allOf ts ∧ tag = "h" ++ toString depth.toNat
  void tag := tag ∈ voidTags
  attr name := name ∈ attrNames

section Keeps

variable {ts : List Token}

theorem keeps_container {tag : String} (h : tag ∈ containerTags) : (element tag).Keeps (vocabulary ts) := by
  have hnone : ∀ tag ∈ containerTags, staysEmpty tag = false := by decide
  refine keeps_element ?_
  rw [hnone tag h]
  exact Or.inl h

theorem keeps_void {tag : String} (h : tag ∈ voidTags) : (element tag).Keeps (vocabulary ts) := by
  have hall : ∀ tag ∈ voidTags, staysEmpty tag = true := by decide
  refine keeps_element ?_
  rwa [hall tag h]

theorem keeps_set {n : Node} (hn : n.Keeps (vocabulary ts)) {name : String} (h : name ∈ attrNames)
    (value : AttrValue) : (n.set name value).Keeps (vocabulary ts) := hn.set h value

theorem keeps_span (s : String) : (span s).Keeps (vocabulary ts) := (keeps_container (by decide)).holdText s

theorem keeps_misfit (m : Misfit) : m.node.Keeps (vocabulary ts) := by
  have hdiv : (element "div").Keeps (vocabulary ts) := keeps_container (by decide)
  have hspan : (element "span").Keeps (vocabulary ts) := keeps_container (by decide)
  rcases m with ⟨_ | _, t⟩
  · exact (keeps_set hdiv (by decide) _).holdText _
  · exact (keeps_set hspan (by decide) _).holdText _

theorem keeps_heading {raw s : String} {depth : UInt8} {inner : List Token}
    (h : .heading raw depth s inner ∈ Token.allOf ts) (content : List Node) :
    (ofHeading depth content).Keeps (vocabulary ts) := by
  refine (keeps_element ?_).hold content
  rw [staysEmpty_heading]
  exact Or.inr ⟨raw, depth, s, inner, h, rfl⟩

theorem keeps_ofCell (header : Bool) (align : Option Align) (content : List Node) :
    (ofCell header align content).Keeps (vocabulary ts) := by
  have hcell : (element (if header then "th" else "td")).Keeps (vocabulary ts) := by
    cases header <;> exact keeps_container (by decide)
  cases align with
  | none => exact hcell.hold content
  | some align => exact (keeps_set hcell (by decide) _).hold content

theorem keeps_ofList (ordered : Bool) (start : UInt32) (items : List Node) :
    (ofList ordered start items).Keeps (vocabulary ts) := by
  have hlist : (element (if ordered then "ol" else "ul")).Keeps (vocabulary ts) := by
    cases ordered <;> exact keeps_container (by decide)
  rw [ofList]
  split
  · exact (keeps_set hlist (by decide) _).hold items
  · exact hlist.hold items

section Policy

variable (policy : Policy)

theorem keeps_link (href : String) (title : Option String) (content : List Node) :
    (policy.link href title content).Keeps (vocabulary ts) := by
  rw [Policy.link]
  cases policy.cleanUrl href with
  | none => exact (keeps_container (by decide)).hold content
  | some url =>
      have ha : ((element "a").set "href" (.str url)).Keeps (vocabulary ts) :=
        keeps_set (keeps_container (by decide)) (by decide) _
      rcases title with _ | title
      · exact ha.hold content
      · by_cases hempty : title = ""
        · simpa [hempty] using ha.hold content
        · have htitle : (((element "a").set "href" (.str url)).set "title" (.str title)).Keeps (vocabulary ts) :=
            keeps_set ha (by decide) _
          simpa [hempty] using htitle.hold content

theorem keeps_image (href : String) (title : Option String) (alt : String) :
    (policy.image href title alt).Keeps (vocabulary ts) := by
  have himg : ∀ src, ((element "img").set "src" src).Keeps (vocabulary ts) := fun src =>
    keeps_set (keeps_void (by decide)) (by decide) src
  rcases title with _ | title
  · exact keeps_set (himg _) (by decide) _
  · exact keeps_set (keeps_set (himg _) (by decide) _) (by decide) _

theorem keeps_checkbox (checked : Bool) : (Policy.checkbox checked).Keeps (vocabulary ts) := by
  have hbox : (((element "input").set "type" (.str "checkbox")).set "disabled" (.bool true)).Keeps
      (vocabulary ts) :=
    keeps_set (keeps_set (keeps_void (by decide)) (by decide) _) (by decide) _
  rw [Policy.checkbox]
  split
  · exact keeps_set hbox (by decide) _
  · exact hbox

theorem keeps_code (s : String) (lang : Option String) (escaped : Bool) :
    (policy.code s lang escaped).Keeps (vocabulary ts) := by
  have hpre : (element "pre").Keeps (vocabulary ts) := keeps_container (by decide)
  rw [Policy.code]
  cases firstWord? lang with
  | none => exact hpre.hold _
  | some word => exact (keeps_set hpre (by decide) _).hold _

/-- Code is trusted HTML in its node. -/
theorem keeps_codeBody {s : String} {lang : Option String} {escaped : Bool}
    (hinert : ∀ html, (policy.codeBody s lang escaped).content = .html html → Text.Inert html.toList) :
    (policy.codeBody s lang escaped).Keeps (vocabulary ts) := by
  have hbody : ((element "code").holdHtml
      (if escaped then endingWithLine s else policy.escapeCode (endingWithLine s) true)).Keeps (vocabulary ts) :=
    (keeps_container (by decide)).holdHtml (hinert _ (policy.content_codeBody s lang escaped))
  rw [Policy.codeBody]
  cases firstWord? lang with
  | none => exact hbody
  | some word => exact keeps_set hbody (by decide) _

end Policy

/-- A node that is made keeps to the vocabulary, if its trusted HTML is inert. -/
theorem keeps_of_made_of_inert {policy : Policy} {t : Token} {m : Node} (ht : t ∈ Token.allOf ts)
    (hinert : ∀ html, m.content = .html html → Text.Inert html.toList) (h : Made policy t m) :
    m.Keeps (vocabulary ts) := by
  cases h with
  | misfit place t => exact keeps_misfit ⟨place, t⟩
  | hr => exact keeps_void (by decide)
  | heading content => exact keeps_heading ht content
  | @code raw s lang escaped => exact keeps_code policy s lang escaped
  | codeBody => exact keeps_codeBody policy hinert
  | table t header rows => exact (keeps_container (by decide)).hold _
  | thead t header => exact (keeps_container (by decide)).hold header
  | tbody t rows => exact (keeps_container (by decide)).hold rows
  | row t cells => exact (keeps_container (by decide)).hold cells
  | cell t header align content => exact keeps_ofCell header align content
  | blockquote t blocks => exact (keeps_container (by decide)).hold blocks
  | list t ordered start items => exact keeps_ofList ordered start items
  | item t task checked blocks => exact (keeps_container (by decide)).hold _
  | checkbox t checked => exact keeps_checkbox checked
  | html => exact (keeps_container (by decide)).holdHtml (hinert _ rfl)
  | paragraph t content => exact (keeps_container (by decide)).hold content
  | span t s => exact keeps_span s
  | fragment t content => exact keeps_fragment content
  | @link raw href s title inner content => exact keeps_link policy href title content
  | @image raw href s title => exact keeps_image policy href title s
  | strong t content => exact (keeps_set (keeps_container (by decide)) (by decide) _).hold content
  | em t content => exact (keeps_container (by decide)).hold content
  | codespan t s => exact (keeps_container (by decide)).holdText s
  | br t => exact keeps_void (by decide)
  | del t content => exact (keeps_container (by decide)).hold content

/-- A node that is made for a token which brings no HTML keeps to the vocabulary: the code in it is escaped in
full. -/
theorem keeps_of_made {policy : Policy} (hescape : policy.escapeCode = Text.escapeHtml) {t : Token} {m : Node}
    (ht : t ∈ Token.allOf ts) (hown : t.bringsHtml = false) (h : Made policy t m) :
    m.Keeps (vocabulary ts) := by
  refine keeps_of_made_of_inert ht (fun html hhtml => ?_) h
  rcases html_of_made h hhtml with ⟨raw, block, pre, rfl⟩ | ⟨raw, code, lang, escaped, rfl, rfl⟩
  · cases hown
  · cases hown
    rw [if_neg Bool.false_ne_true, hescape, Text.toList_escapeHtml_full]
    exact Text.inert_escapeAll _

end Keeps

/-- A run without extensions that escapes code in full and succeeds, over a forest that brings no HTML of
its own at any depth: what is written of the output is properly nested HTML in the vocabulary of the
rules, and all text and attribute values in it are inert. It does not matter how addresses are cleaned. -/
theorem html_is_markup (cleanUrl : String → Option String) (checkboxes silent top : Bool) (place : Place)
    (ts : List Token) {nodes : List Node} (hown : ∀ t ∈ Token.allOf ts, t.bringsHtml = false)
    (h : ((ofPolicy { cleanUrl, checkboxes } silent).renderTokens (place.level top) ts).outcome = .ok nodes) :
    Markup (vocabulary ts) (Node.html nodes).toList := by
  rw [eq_drawOf_of_ok h, Node.html, String.toList_ofList]
  refine markup_htmlCharsOf fun m hm => ?_
  obtain ⟨t, ht, hmade⟩ := made_of_mem_drawOf hm
  exact keeps_of_made rfl ht (hown t ht) hmade

/-- Markup in a text, in an address that is kept as it is, in a title and in a kind. -/
theorem html_is_markup_of_hostile_text :
    ∃ nodes, ((ofPolicy { cleanUrl := some } true).renderTokens (Place.block.level true)
        [.paragraph "" "" [.text "" "</p><script>" none false, .link "" "\"><b>" (some "'&") "" [],
          .custom "<i>" "" "" []]]).outcome = .ok nodes ∧
      Markup (vocabulary [.paragraph "" "" [.text "" "</p><script>" none false,
        .link "" "\"><b>" (some "'&") "" [], .custom "<i>" "" "" []]]) (Node.html nodes).toList := by
  refine ⟨_, rfl, html_is_markup some false true true .block _ ?_ rfl⟩
  simp [Token.allOf, Token.all_eq, Token.inner, Token.children, Token.items, Token.header, Token.rows,
    Token.bringsHtml]

end Renderer
end MarkdownNodes
