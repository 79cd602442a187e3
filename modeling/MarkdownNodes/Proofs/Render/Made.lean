import MarkdownNodes.Proofs.Node.Html
import MarkdownNodes.Proofs.Render.Drawing
import MarkdownNodes.Proofs.Render.Rules

/-! Where the nodes of a drawing come from. Every node, at every depth, is one that the rule for some
token of the forest makes; what holds of all of these holds everywhere in the output. -/

namespace MarkdownNodes

/-- The nodes that the rule for a token makes, whatever stands in its parts. The node of a misfit counts
as made for the misfit. -/
inductive Made (policy : Policy) : Token → Node → Prop
  | misfit (place : Place) (t : Token) : Made policy t (Misfit.node ⟨place, t⟩)
  | hr {raw : String} : Made policy (.hr raw) (Node.element "hr")
  | heading {raw s : String} {depth : UInt8} {ts : List Token} (content : List Node) :
      Made policy (.heading raw depth s ts) (Node.ofHeading depth content)
  | code {raw s : String} {lang : Option String} {escaped : Bool} :
      Made policy (.code raw s lang escaped) (policy.code s lang escaped)
  | codeBody {raw s : String} {lang : Option String} {escaped : Bool} :
      Made policy (.code raw s lang escaped) (policy.codeBody s lang escaped)
  | table (t : Token) (header rows : List Node) : Made policy t (Node.ofTable header rows)
  | thead (t : Token) (header : List Node) : Made policy t ((Node.element "thead").hold header)
  | tbody (t : Token) (rows : List Node) : Made policy t ((Node.element "tbody").hold rows)
  | row (t : Token) (cells : List Node) : Made policy t (Node.ofRow cells)
  | cell (t : Token) (header : Bool) (align : Option Align) (content : List Node) :
      Made policy t (Node.ofCell header align content)
  | blockquote (t : Token) (blocks : List Node) : Made policy t ((Node.element "blockquote").hold blocks)
  | list (t : Token) (ordered : Bool) (start : UInt32) (items : List Node) :
      Made policy t (Node.ofList ordered start items)
  | item (t : Token) (task : Bool) (checked : Option Bool) (blocks : List Node) :
      Made policy t (policy.item task checked blocks)
  | checkbox (t : Token) (checked : Bool) : Made policy t (Policy.checkbox checked)
  | html {raw s : String} {block pre : Bool} :
      Made policy (.html raw s block pre) ((Node.element "span").holdHtml s)
  | paragraph (t : Token) (content : List Node) : Made policy t ((Node.element "p").hold content)
  | span (t : Token) (s : String) : Made policy t (Node.span s)
  | fragment (t : Token) (content : List Node) : Made policy t (Node.fragment content)
  | link {raw href s : String} {title : Option String} {ts : List Token} (content : List Node) :
      Made policy (.link raw href title s ts) (policy.link href title content)
  | image {raw href s : String} {title : Option String} :
      Made policy (.image raw href title s) (policy.image href title s)
  | strong (t : Token) (content : List Node) : Made policy t (Node.ofStrong content)
  | em (t : Token) (content : List Node) : Made policy t ((Node.element "em").hold content)
  | codespan (t : Token) (s : String) : Made policy t ((Node.element "code").holdText s)
  | br (t : Token) : Made policy t (Node.element "br")
  | del (t : Token) (content : List Node) : Made policy t ((Node.element "del").hold content)

namespace Renderer

open Node

variable {policy : Policy} {t : Token} {m : Node}

/-! ### The content of a node that is made -/

/-- Trusted HTML in a node is that of an HTML token, or the code of a block of code. -/
theorem html_of_made (h : Made policy t m) {s : String} (hs : m.content = .html s) :
    (∃ raw block pre, t = .html raw s block pre) ∨
      ∃ raw code lang escaped, t = .code raw code lang escaped ∧
        s = if escaped then endingWithLine code else policy.escapeCode (endingWithLine code) true := by
  cases h with
  | @html raw s' block pre =>
      cases hs
      exact Or.inl ⟨raw, block, pre, rfl⟩
  | @codeBody raw code lang escaped =>
      rw [Policy.content_codeBody] at hs
      cases hs
      exact Or.inr ⟨raw, code, lang, escaped, rfl, rfl⟩
  | @code raw code lang escaped =>
      rw [Policy.code] at hs
      cases hword : firstWord? lang <;> simp [hword, hold] at hs
  | link content =>
      rw [Policy.content_link] at hs
      cases hs
  | image =>
      rw [Policy.content_image] at hs
      cases hs
  | cell t header align content =>
      rw [content_ofCell] at hs
      cases hs
  | checkbox t checked =>
      rw [Policy.content_checkbox] at hs
      cases hs
  | _ => cases hs

/-- No rule puts anything into an element that stays empty. -/
theorem keepsEmpty_of_made (h : Made policy t m) : m.KeepsEmpty := by
  cases h with
  | misfit place t =>
      cases place with
      | block => exact @keepsEmpty_of_tag _ "div" rfl (by decide)
      | inline => exact @keepsEmpty_of_tag _ "span" rfl (by decide)
  | hr => exact keepsEmpty_of_content rfl
  | heading content => exact keepsEmpty_of_tag rfl (staysEmpty_heading _)
  | @code raw s lang escaped =>
      have hkind : (policy.code s lang escaped).kind = .element "pre" := by
        rw [Policy.code]
        cases firstWord? lang <;> rfl
      exact keepsEmpty_of_tag hkind (by decide)
  | @codeBody raw s lang escaped =>
      have hkind : (policy.codeBody s lang escaped).kind = .element "code" := by
        rw [Policy.codeBody]
        cases firstWord? lang <;> rfl
      exact keepsEmpty_of_tag hkind (by decide)
  | cell t header align content =>
      cases header <;> cases align <;> exact keepsEmpty_of_tag rfl (by decide)
  | list t ordered start items =>
      have hkind : (ofList ordered start items).kind = .element (if ordered then "ol" else "ul") := by
        rw [ofList]
        split <;> rfl
      exact keepsEmpty_of_tag hkind (by cases ordered <;> decide)
  | checkbox t checked => exact keepsEmpty_of_content (Policy.content_checkbox checked)
  | fragment t content => exact keepsEmpty_fragment content
  | @link raw href s title ts content =>
      cases hurl : policy.cleanUrl href with
      | none =>
          rw [Policy.link_of_clean_none hurl]
          exact keepsEmpty_of_tag rfl (by decide)
      | some url =>
          obtain ⟨more, hlink⟩ := Policy.link_of_clean_some hurl title content
          rw [hlink]
          exact keepsEmpty_of_tag rfl (by decide)
  | @image raw href s title => exact keepsEmpty_of_content (Policy.content_image policy href title s)
  | br t => exact keepsEmpty_of_content rfl
  | _ => exact keepsEmpty_of_tag rfl (by decide)

/-! ### Nodes and what is inside -/

/-- A node in the forest of one node is that node or one inside. -/
theorem mem_allOf_singleton {n : Node} (h : m ∈ allOf [n]) : m = n ∨ m ∈ allOf n.inner := by
  simpa [all_eq n] using h

theorem made_or_inside {n : Node} (hn : Made policy t n) (h : m ∈ allOf [n]) :
    Made policy t m ∨ m ∈ allOf n.inner := by
  rcases mem_allOf_singleton h with rfl | hinside
  · exact Or.inl hn
  · exact Or.inr hinside

/-! ### One step -/

section Step

variable {parts : Part → List Node}

/-- A node is the rule's own, or it stands in a rendered part. -/
def MadeOrInside (policy : Policy) (t : Token) (parts : Part → List Node) (m : Node) : Prop :=
  Made policy t m ∨ ∃ part, m ∈ allOf (parts part)

theorem madeOrInside_leaf {n : Node} (hn : Made policy t n) (hinner : n.inner = []) (h : m ∈ allOf [n]) :
    MadeOrInside policy t parts m := by
  rcases made_or_inside hn h with hmade | hinside
  · exact Or.inl hmade
  · rw [hinner, allOf_nil] at hinside
    exact absurd hinside List.not_mem_nil

theorem madeOrInside_around {n : Node} {part : Part} (hn : Made policy t n) (hinner : n.inner = parts part)
    (h : m ∈ allOf [n]) : MadeOrInside policy t parts m := by
  rcases made_or_inside hn h with hmade | hinside
  · exact Or.inl hmade
  · exact Or.inr ⟨part, hinner ▸ hinside⟩

theorem madeOrInside_code {raw s : String} {lang : Option String} {escaped : Bool}
    (h : m ∈ allOf [policy.code s lang escaped]) :
    MadeOrInside policy (.code raw s lang escaped) parts m := by
  rcases made_or_inside .code h with hmade | hinside
  · exact Or.inl hmade
  · rw [Policy.inner_code] at hinside
    exact madeOrInside_leaf .codeBody (Policy.inner_codeBody policy s lang escaped) hinside

theorem madeOrInside_table (h : m ∈ allOf [ofTable (parts .header) (parts .rows)]) :
    MadeOrInside policy t parts m := by
  simp only [ofTable, ofRow, allOf_cons, allOf_nil, all_eq, inner_hold, List.append_nil, List.mem_append,
    List.mem_cons] at h
  rcases h with rfl | (rfl | rfl | hheader) | rfl | hrows
  · exact Or.inl (.table t (parts .header) (parts .rows))
  · exact Or.inl (.thead t _)
  · exact Or.inl (.row t (parts .header))
  · exact Or.inr ⟨.header, hheader⟩
  · exact Or.inl (.tbody t (parts .rows))
  · exact Or.inr ⟨.rows, hrows⟩

theorem made_of_mem_marks {task : Bool} {checked : Option Bool} (h : m ∈ allOf (policy.marks task checked)) :
    Made policy t m := by
  rw [Policy.marks] at h
  split at h
  · rcases mem_allOf_singleton h with rfl | hinside
    · exact .checkbox t _
    · simp at hinside
  · simp at h

theorem made_or_inside_item {task : Bool} {checked : Option Bool} {blocks : List Node}
    (h : m ∈ allOf [policy.item task checked blocks]) : Made policy t m ∨ m ∈ allOf blocks := by
  rcases made_or_inside (.item t task checked blocks) h with hmade | hinside
  · exact Or.inl hmade
  · rw [Policy.inner_item, allOf_append] at hinside
    exact (List.mem_append.mp hinside).imp_left made_of_mem_marks

theorem madeOrInside_text {s : String} {parsed : Bool} {unknown : Node}
    (h : m ∈ allOf ((textRecipe .nested s parsed).nodes unknown parts)) : MadeOrInside policy t parts m := by
  cases parsed with
  | true => exact madeOrInside_around (.fragment t _) (inner_fragment _) h
  | false => exact madeOrInside_leaf (.span t s) (inner_span s) h

theorem madeOrInside_block
    (h : m ∈ allOf ((recipeIn policy .block t).nodes (Misfit.node ⟨.block, t⟩) parts)) :
    MadeOrInside policy t parts m := by
  cases t with
  | space raw => exact absurd h List.not_mem_nil
  | hr raw => exact madeOrInside_leaf .hr rfl h
  | heading raw depth s ts => exact madeOrInside_around (.heading _) rfl h
  | code raw s lang escaped => exact madeOrInside_code h
  | table raw align header rows => exact madeOrInside_table h
  | blockquote raw s ts => exact madeOrInside_around (.blockquote _ _) rfl h
  | list raw ordered start loose items => exact madeOrInside_around (.list _ ordered start _) rfl h
  | listItem item => exact (made_or_inside_item h).imp_right fun hblocks => ⟨_, hblocks⟩
  | html raw s block pre => exact madeOrInside_leaf .html rfl h
  | paragraph raw s ts => exact madeOrInside_around (.paragraph _ _) rfl h
  | text raw s tokens escaped => exact madeOrInside_text h
  | _ => exact madeOrInside_leaf (.misfit .block _) rfl h

theorem madeOrInside_inline
    (h : m ∈ allOf ((recipeIn policy .inline t).nodes (Misfit.node ⟨.inline, t⟩) parts)) :
    MadeOrInside policy t parts m := by
  cases t with
  | escape raw s => exact madeOrInside_leaf (.span _ s) rfl h
  | html raw s block pre => exact madeOrInside_leaf .html rfl h
  | link raw href title s ts =>
      exact madeOrInside_around (.link _) (Policy.inner_link policy href title _) h
  | image raw href title s => exact madeOrInside_leaf .image (Policy.inner_image policy href title s) h
  | strong raw s ts => exact madeOrInside_around (.strong _ _) rfl h
  | em raw s ts => exact madeOrInside_around (.em _ _) rfl h
  | codespan raw s => exact madeOrInside_leaf (.codespan _ s) rfl h
  | br raw => exact madeOrInside_leaf (.br _) rfl h
  | del raw s ts => exact madeOrInside_around (.del _ _) rfl h
  | text raw s tokens escaped => exact madeOrInside_text h
  | _ => exact madeOrInside_leaf (.misfit .inline _) rfl h

/-- A node in what a rule makes is the rule's own or stands in a rendered part. -/
theorem madeOrInside_of_mem_nodes {place : Place}
    (h : m ∈ allOf ((recipeIn policy place t).nodes (Misfit.node ⟨place, t⟩) parts)) :
    MadeOrInside policy t parts m := by
  cases place with
  | block => exact madeOrInside_block h
  | inline => exact madeOrInside_inline h

end Step

/-! ### All steps -/

theorem mem_allOf_drawOf {place : Place} {ts : List Token} (h : m ∈ allOf (drawOf policy place ts)) :
    ∃ u ∈ ts, m ∈ allOf (draw policy place u) := by
  rwa [drawOf, allOf_flatMap, List.mem_flatMap] at h

theorem made_or_below_cells {header : Bool} {cells : List (Cell Token)}
    (h : m ∈ allOf (cells.map (drawCell policy header))) :
    Made policy t m ∨ ∃ cell ∈ cells, ∃ u ∈ cell.tokens, m ∈ allOf (draw policy .inline u) := by
  obtain ⟨n, hn, hm⟩ := mem_allOf.mp h
  obtain ⟨cell, hcell, rfl⟩ := List.mem_map.mp hn
  rw [all_eq, drawCell, inner_ofCell] at hm
  rcases List.mem_cons.mp hm with rfl | hinside
  · exact Or.inl (.cell t header cell.align _)
  · exact Or.inr ⟨cell, hcell, mem_allOf_drawOf hinside⟩

/-- A node in the drawing of a part is made for the token, or stands in the drawing of a token one level
down. -/
theorem made_or_below {part : Part} (h : m ∈ allOf (drawPart policy t part)) :
    Made policy t m ∨ ∃ u ∈ t.inner, ∃ place, m ∈ allOf (draw policy place u) := by
  cases part with
  | children level =>
      obtain ⟨u, hu, hm⟩ := mem_allOf_drawOf h
      exact Or.inr ⟨u, Token.mem_inner_of_mem_children hu, level.place, hm⟩
  | items =>
      obtain ⟨n, hn, hm⟩ := mem_allOf.mp h
      obtain ⟨item, hitem, rfl⟩ := List.mem_map.mp hn
      rcases made_or_inside_item (mem_allOf.mpr ⟨_, List.mem_singleton_self _, hm⟩) with hmade | hblocks
      · exact Or.inl hmade
      · obtain ⟨u, hu, hm⟩ := mem_allOf_drawOf hblocks
        exact Or.inr ⟨u, Token.mem_inner_of_mem_items hitem hu, .block, hm⟩
  | header =>
      rcases made_or_below_cells h with hmade | ⟨cell, hcell, u, hu, hm⟩
      · exact Or.inl hmade
      · exact Or.inr ⟨u, Token.mem_inner_of_mem_header hcell hu, .inline, hm⟩
  | rows =>
      obtain ⟨n, hn, hm⟩ := mem_allOf.mp h
      obtain ⟨row, hrow, rfl⟩ := List.mem_map.mp hn
      rw [all_eq, drawRow, inner_ofRow] at hm
      rcases List.mem_cons.mp hm with rfl | hinside
      · exact Or.inl (.row t _)
      · rcases made_or_below_cells hinside with hmade | ⟨cell, hcell, u, hu, hm⟩
        · exact Or.inl hmade
        · exact Or.inr ⟨u, Token.mem_inner_of_mem_rows hrow hcell hu, .inline, hm⟩

theorem made_of_mem_draw {place : Place} (h : m ∈ allOf (draw policy place t)) :
    ∃ u ∈ t.all, Made policy u m := by
  induction t using Token.induct generalizing place with
  | step t ih =>
      rw [draw_eq] at h
      have hbelow : Made policy t m ∨ ∃ u ∈ t.inner, ∃ place, m ∈ allOf (draw policy place u) := by
        rcases madeOrInside_of_mem_nodes h with hmade | ⟨part, hpart⟩
        · exact Or.inl hmade
        · exact made_or_below hpart
      rcases hbelow with hmade | ⟨u, hu, place, hm⟩
      · exact ⟨t, Token.mem_all_self t, hmade⟩
      · obtain ⟨v, hv, hmade⟩ := ih u hu hm
        exact ⟨v, Token.mem_all_of_mem_inner hu hv, hmade⟩

/-- Every node in a drawing, at every depth, is made for some token of the forest. -/
theorem made_of_mem_drawOf {place : Place} {ts : List Token} (h : m ∈ allOf (drawOf policy place ts)) :
    ∃ u ∈ Token.allOf ts, Made policy u m := by
  obtain ⟨t, ht, hm⟩ := mem_allOf_drawOf h
  obtain ⟨u, hu, hmade⟩ := made_of_mem_draw hm
  exact ⟨u, List.mem_flatMap.mpr ⟨t, ht, hu⟩, hmade⟩

end Renderer
end MarkdownNodes
