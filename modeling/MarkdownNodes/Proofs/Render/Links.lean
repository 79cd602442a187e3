import MarkdownNodes.Proofs.Render.Made
import MarkdownNodes.Proofs.Render.Reached
import MarkdownNodes.Proofs.Text.Address
import MarkdownNodes.Proofs.Text.Entity

/-! Safety of links. Where addresses are cleaned, a node with an address is a link to one that runs no
script, and this is the address that is written; a link that would run script has no address. -/

namespace MarkdownNodes

/-- The address of a link. -/
def Token.href? : Token → Option String
  | .link _ href _ _ _ => some href
  | _ => none

/-- The links that are reached in a forest. -/
def Token.linksOf (place : Place) (ts : List Token) : List (Place × Token) :=
  (reachedOf place ts).filter fun s => s.2.href?.isSome

namespace Renderer

open Node

variable {policy : Policy} {t : Token} {m : Node}

/-! ### Nodes with an address -/

/-- Of the nodes that rules make, only those for links can have an address. -/
theorem href_of_made (h : Made policy t m) :
    (∃ raw href title s ts content, t = .link raw href title s ts ∧ m = policy.link href title content) ∨
      m.attr? "href" = none := by
  cases h with
  | @link raw href s title ts content => exact Or.inl ⟨raw, href, title, s, ts, content, rfl, rfl⟩
  | misfit place t => exact Or.inr (by simp [Misfit.node, ofError])
  | @code raw s lang escaped => exact Or.inr (by rw [Policy.code]; cases firstWord? lang <;> simp)
  | @codeBody raw s lang escaped => exact Or.inr (by rw [Policy.codeBody]; cases firstWord? lang <;> simp)
  | cell t header align content => exact Or.inr (by cases align <;> simp [ofCell])
  | list t ordered start items => exact Or.inr (by rw [ofList]; split <;> simp)
  | checkbox t checked => exact Or.inr (by cases checked <;> simp [Policy.checkbox])
  | @image raw href s title => exact Or.inr (by cases title <;> simp [Policy.image])
  | strong t content => exact Or.inr (by simp [ofStrong])
  | _ => exact Or.inr rfl

theorem losesNothing_of_made (h : Made policy t m) : m.LosesNothing := (keepsEmpty_of_made h).losesNothing

/-- Every node in the output of a run that succeeds, at whatever depth, stands as it is in what is written. -/
theorem htmlChars_infix_of_ok {silent top : Bool} {place : Place} {ts : List Token} {nodes : List Node}
    (h : ((ofPolicy policy silent).renderTokens (place.level top) ts).outcome = .ok nodes) {n : Node}
    (hn : n ∈ allOf nodes) : htmlChars n <:+: (html nodes).toList := by
  have hkept : ∀ k ∈ allOf nodes, k.LosesNothing := by
    intro k hk
    obtain ⟨u, _, hmade⟩ := made_of_mem_drawOf (eq_drawOf_of_ok h ▸ hk)
    exact losesNothing_of_made hmade
  rw [html, String.toList_ofList]
  exact htmlChars_infix_of_mem_allOf hkept hn

/-! ### Safe addresses -/

/-- The node links to an address of plain characters that runs no script, and this address, with its
special characters as entities, is what stands in quotes at the head of the node's HTML. -/
structure LinksSafely (n : Node) (url : String) : Prop where
  tag : n.kind = .element "a"
  chars : ∀ c ∈ url.toList, c ∈ Text.Url.uriChars
  safe : ¬ Text.Url.ScriptAddress url.toList
  written : ∃ value, "<a href=\"".toList ++ value ++ ['"'] <+: htmlChars n ∧ '"' ∉ value ∧
    Text.decode value = url.toList

theorem linksSafely_of_clean {href url : String} (h : Text.Url.clean href = some url)
    (more : Entries AttrValue) (content : Content Node) :
    LinksSafely { kind := .element "a", attrs := ("href", .str url) :: more, content } url where
  tag := rfl
  chars := (Text.Url.clean_eq_some h).1
  safe := (Text.Url.clean_eq_some h).2
  written := by
    refine ⟨Text.escapeAll url.toList, ?_, ?_, Text.decode_escapeAll _⟩
    · rw [htmlChars, startTag]
      simp [attrChars]
    · exact fun hquote => (Text.inert_escapeAll url.toList).1 _ hquote (by decide)

/-- Where addresses are cleaned, every node with an address that a rule makes links safely to it. -/
theorem linksSafely_of_made (hclean : policy.cleanUrl = Text.Url.clean) (h : Made policy t m)
    {value : AttrValue} (hvalue : m.attr? "href" = some value) : ∃ url, value = .str url ∧ LinksSafely m url := by
  rcases href_of_made h with ⟨raw, href, title, s, ts, content, rfl, rfl⟩ | hnone
  · cases hurl : policy.cleanUrl href with
    | none =>
        rw [Policy.link_of_clean_none hurl] at hvalue
        simp at hvalue
    | some url =>
        obtain ⟨more, hlink⟩ := Policy.link_of_clean_some hurl title content
        rw [hlink] at hvalue ⊢
        cases hvalue
        exact ⟨url, rfl, linksSafely_of_clean (hclean ▸ hurl) more _⟩
  · rw [hnone] at hvalue
    cases hvalue

/-! ### Links that are reached -/

/-- A link in its place is drawn as the node for its address, and without one if it would run script. -/
theorem span_of_draw_link {place : Place} {href : String} (hclean : policy.cleanUrl = Text.Url.clean)
    (hadmits : place.admits t = true) (hhref : t.href? = some href) {n : Node} (hn : draw policy place t = [n])
    (hscript : Text.Url.ScriptAddress href.toList) : n.kind = .element "span" ∧ n.attr? "href" = none := by
  cases t with
  | link raw href' title s ts =>
      cases hhref
      cases place with
      | block => cases hadmits
      | inline =>
          rw [draw_eq] at hn
          cases hn
          have hrefused : policy.cleanUrl href = none := hclean ▸ Text.Url.clean_of_scriptAddress hscript
          show (policy.link href title _).kind = _ ∧ (policy.link href title _).attr? "href" = none
          rw [Policy.link_of_clean_none hrefused]
          exact ⟨rfl, rfl⟩
  | _ => cases hhref

theorem linksOf_sublist_shown (place : Place) (ts : List Token) :
    (Token.linksOf place ts).Sublist (shown (Token.reachedOf place ts)) := by
  refine List.monotone_filter_right _ fun s => ?_
  rcases s with ⟨_ | _, t⟩ <;> cases t <;> simp [Token.href?, Place.shows]

/-- A run without extensions that cleans addresses and succeeds. Every node with an address, at every
depth, links safely to it and stands as it is in what is written of the output. And every link that is
reached has in document order a node of its own in the output, the one that it renders to alone; if it
would run script, this is a span without an address. It does not matter how code is escaped. -/
theorem links_are_safe (escapeCode : String → Bool → String) (checkboxes silent top : Bool) (place : Place)
    (ts : List Token) {nodes : List Node}
    (h : ((ofPolicy { escapeCode, checkboxes } silent).renderTokens (place.level top) ts).outcome = .ok nodes) :
    (∀ n ∈ allOf nodes, ∀ value, n.attr? "href" = some value →
      ∃ url, value = .str url ∧ LinksSafely n url ∧ htmlChars n <:+: (html nodes).toList) ∧
    List.SublistForall₂
      (fun s n =>
        ((ofPolicy { escapeCode, checkboxes } silent).renderToken (s.1.level top) s.2).outcome = .ok [n] ∧
          ∀ href, s.2.href? = some href → Text.Url.ScriptAddress href.toList →
            n.kind = .element "span" ∧ n.attr? "href" = none)
      (Token.linksOf place ts) (allOf nodes) := by
  have hnodes := eq_drawOf_of_ok h
  constructor
  · intro n hn value hvalue
    have hmade : ∀ k ∈ allOf nodes, ∃ u, Made { escapeCode, checkboxes } u k := fun k hk =>
      (made_of_mem_drawOf (hnodes ▸ hk)).imp fun _ => And.right
    obtain ⟨u, hu⟩ := hmade n hn
    obtain ⟨url, hurl, hsafe⟩ := linksSafely_of_made rfl hu hvalue
    have hkept : ∀ k ∈ allOf nodes, k.LosesNothing := fun k hk => (hmade k hk).elim fun _ => losesNothing_of_made
    rw [html, String.toList_ofList]
    exact ⟨url, hurl, hsafe, htmlChars_infix_of_mem_allOf hkept hn⟩
  · have hleft := sublistForall₂_of_sublist_left (leaves_drawOf { escapeCode, checkboxes } place ts)
      (linksOf_sublist_shown place ts)
    rw [hnodes]
    refine sublistForall₂_imp hleft fun s hs n hn => ?_
    have hreached : s ∈ Token.reachedOf place ts := List.mem_of_mem_filter hs
    refine ⟨?_, fun href hhref => span_of_draw_link rfl (Token.admits_of_mem_reachedOf hreached) hhref hn⟩
    rw [renderToken_of_mem_reachedOf h hreached, show draw _ s.1 s.2 = [n] from hn]

/-- An address that hides its scheme, and one that would close the attribute. -/
theorem links_are_safe_of_hostile_addresses :
    ∃ nodes, ((ofPolicy {} false).renderTokens (Place.inline.level true)
        [.link "" " JAVA\tscript:x" none "" [], .link "" "x\"y" none "" []]).outcome = .ok nodes ∧
      ∀ n ∈ allOf nodes, ∀ value, n.attr? "href" = some value →
        ∃ url, value = .str url ∧ LinksSafely n url ∧ htmlChars n <:+: (html nodes).toList :=
  ⟨_, rfl, (links_are_safe Text.escapeHtml false false true .inline
    [.link "" " JAVA\tscript:x" none "" [], .link "" "x\"y" none "" []] rfl).1⟩

end Renderer
end MarkdownNodes
