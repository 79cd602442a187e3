import MarkdownNodes.Node.Html
import MarkdownNodes.Proofs.Node.Walk
import MarkdownNodes.Proofs.Text.Entity

/-! Properly nested HTML. The grammar has start tags, matching end tags and tags without an end, and
between them runs of inert text; a vocabulary says which names may stand in it. Nodes that keep to a
vocabulary, and whose trusted HTML is inert text, are written in this grammar. -/

namespace MarkdownNodes

/-- The names that may stand in HTML. -/
structure Vocabulary where
  /-- The tags with an end tag. -/
  container : String → Prop
  /-- The tags without an end tag. -/
  void : String → Prop
  /-- The attributes of both. -/
  attr : String → Prop

/-- The attributes in a start tag: each stands after a space, bare or with an inert value in quotes. -/
inductive Attributes (v : Vocabulary) : List Char → Prop
  | nil : Attributes v []
  | bare {name : String} {rest : List Char} :
      v.attr name → Attributes v rest → Attributes v (' ' :: name.toList ++ rest)
  | quoted {name : String} {value rest : List Char} :
      v.attr name → Text.Inert value → Attributes v rest →
      Attributes v (' ' :: name.toList ++ ['=', '"'] ++ value ++ ['"'] ++ rest)

/-- HTML in which every start tag has its end tag, or needs none, and all other text is inert. -/
inductive Markup (v : Vocabulary) : List Char → Prop
  | nil : Markup v []
  | text {run rest : List Char} : Text.Inert run → Markup v rest → Markup v (run ++ rest)
  | void {tag : String} {attrs rest : List Char} :
      v.void tag → Attributes v attrs → Markup v rest →
      Markup v ('<' :: tag.toList ++ attrs ++ ['>'] ++ rest)
  | element {tag : String} {attrs content rest : List Char} :
      v.container tag → Attributes v attrs → Markup v content → Markup v rest →
      Markup v ('<' :: tag.toList ++ attrs ++ ['>'] ++ content ++ ['<', '/'] ++ tag.toList ++ ['>'] ++ rest)

section Grammar

variable {v : Vocabulary} {a b : List Char}

theorem Attributes.append (ha : Attributes v a) (hb : Attributes v b) : Attributes v (a ++ b) := by
  induction ha with
  | nil => exact hb
  | bare hname _ ih => simpa using Attributes.bare hname ih
  | quoted hname hvalue _ ih => simpa using Attributes.quoted hname hvalue ih

theorem Markup.append (ha : Markup v a) (hb : Markup v b) : Markup v (a ++ b) := by
  induction ha with
  | nil => exact hb
  | text hrun _ ih => simpa using Markup.text hrun ih
  | void htag hattrs _ ih => simpa using Markup.void htag hattrs ih
  | element htag hattrs hcontent _ _ ih => simpa using Markup.element htag hattrs hcontent ih

theorem Markup.ofInert (h : Text.Inert a) : Markup v a := by
  simpa using Markup.text h Markup.nil

end Grammar

/-- A node keeps to a vocabulary, itself and not what is inside: its names are in it, and its trusted
HTML, if it has any, is inert text. -/
structure Node.Keeps (v : Vocabulary) (n : Node) : Prop where
  tag : ∀ tag, n.kind = .element tag → if Node.staysEmpty tag then v.void tag else v.container tag
  attrs : ∀ name ∈ n.attrs.names, v.attr name
  html : ∀ s, n.content = .html s → Text.Inert s.toList

namespace Node

/-! ### Keeping to a vocabulary -/

section Keeps

variable {v : Vocabulary} {n : Node}

theorem keeps_element {tag : String} (h : if staysEmpty tag then v.void tag else v.container tag) :
    (element tag).Keeps v where
  tag other heq := by
    cases heq
    exact h
  attrs _ hname := absurd hname List.not_mem_nil
  html _ heq := nomatch heq

theorem keeps_fragment (ns : List Node) : (fragment ns).Keeps v where
  tag _ heq := nomatch heq
  attrs _ hname := absurd hname List.not_mem_nil
  html _ heq := nomatch heq

theorem Keeps.set (hn : n.Keeps v) {name : String} (hname : v.attr name) (value : AttrValue) :
    (n.set name value).Keeps v where
  tag := hn.tag
  attrs other hother := by
    rw [Node.set, Entries.names_set] at hother
    split at hother
    · exact hn.attrs other hother
    · rcases List.mem_append.mp hother with hother | hother
      · exact hn.attrs other hother
      · exact List.mem_singleton.mp hother ▸ hname
  html := hn.html

theorem Keeps.hold (hn : n.Keeps v) (ns : List Node) : (n.hold ns).Keeps v where
  tag := hn.tag
  attrs := hn.attrs
  html _ heq := nomatch heq

theorem Keeps.holdText (hn : n.Keeps v) (s : String) : (n.holdText s).Keeps v where
  tag := hn.tag
  attrs := hn.attrs
  html _ heq := nomatch heq

theorem Keeps.holdHtml (hn : n.Keeps v) {s : String} (hs : Text.Inert s.toList) : (n.holdHtml s).Keeps v where
  tag := hn.tag
  attrs := hn.attrs
  html other heq := by
    cases heq
    exact hs

end Keeps

/-! ### The HTML of nodes -/

/-- A number in decimal has no character that is special in HTML. -/
theorem plain_int (n : Int) : ∀ c ∈ (toString n).toList, c ∉ ['<', '>', '"', '\'', '&'] := by
  have hdigits : ∀ m : Nat, ∀ c ∈ m.repr.toList, c ∉ ['<', '>', '"', '\'', '&'] := by
    intro m c hc hspecial
    rw [Nat.toList_repr] at hc
    have hdigit := Nat.isDigit_of_mem_toDigits (by decide) (by decide) hc
    revert hdigit
    simp only [List.mem_cons, List.not_mem_nil, or_false] at hspecial
    rcases hspecial with rfl | rfl | rfl | rfl | rfl <;> decide
  cases n with
  | ofNat m => exact hdigits m
  | negSucc m =>
      intro c hc
      rw [Int.toString_eq_repr, Int.repr, String.toList_append] at hc
      rcases List.mem_append.mp hc with hc | hc
      · rw [List.mem_singleton.mp hc]
        decide
      · exact hdigits _ c hc

theorem inert_int (n : Int) : Text.Inert (toString n).toList := Text.inert_of_plain (plain_int n)

theorem attributes_flatMap {v : Vocabulary} {attrs : Entries AttrValue}
    (h : ∀ name ∈ attrs.names, v.attr name) : Attributes v (attrs.flatMap attrChars) := by
  induction attrs with
  | nil => exact Attributes.nil
  | cons entry attrs ih =>
      have hrest := ih fun name hname => h name (List.mem_cons_of_mem entry.1 hname)
      have hname : v.attr entry.1 := h entry.1 List.mem_cons_self
      rw [List.flatMap_cons]
      refine Attributes.append ?_ hrest
      rcases entry with ⟨name, s | n | _ | _⟩
      · simpa [attrChars] using Attributes.quoted hname (Text.inert_escapeAll s.toList) Attributes.nil
      · simpa [attrChars] using Attributes.quoted hname (inert_int n) Attributes.nil
      · exact Attributes.nil
      · simpa [attrChars] using Attributes.bare hname Attributes.nil

theorem markup_htmlCharsOf_of {v : Vocabulary} {ns : List Node} (h : ∀ n ∈ ns, Markup v (htmlChars n)) :
    Markup v (htmlCharsOf ns) := by
  induction ns with
  | nil => exact Markup.nil
  | cons n ns ih =>
      rw [htmlCharsOf]
      exact (h n List.mem_cons_self).append (ih fun m hm => h m (List.mem_cons_of_mem n hm))

/-- What is inside a node is in the grammar if the nodes inside are. -/
theorem markup_contentHtmlChars {v : Vocabulary} {n : Node} (hn : n.Keeps v)
    (h : ∀ m ∈ n.inner, Markup v (htmlChars m)) : Markup v (contentHtmlChars n.content) := by
  rcases n with ⟨kind, attrs, _ | s | s | ns⟩
  · exact Markup.nil
  · exact Markup.ofInert (Text.inert_escapeAll s.toList)
  · exact Markup.ofInert (hn.html s rfl)
  · exact markup_htmlCharsOf_of h

theorem markup_htmlChars {v : Vocabulary} (n : Node) (h : ∀ m ∈ n.all, m.Keeps v) :
    Markup v (htmlChars n) := by
  induction n using induct with
  | step n ih =>
      rw [all_eq] at h
      have hn : n.Keeps v := h n List.mem_cons_self
      have hinner : ∀ m ∈ n.inner, Markup v (htmlChars m) := fun m hm =>
        ih m hm fun k hk => h k (List.mem_cons_of_mem n (mem_allOf.mpr ⟨m, hm, hk⟩))
      have hcontent := markup_contentHtmlChars hn hinner
      rcases n with ⟨tag | _, attrs, content⟩
      · have htag := hn.tag tag rfl
        have hattrs := attributes_flatMap hn.attrs
        rw [htmlChars, startTag]
        by_cases hvoid : staysEmpty tag = true
        · rw [if_pos hvoid] at htag ⊢
          simpa using Markup.void htag hattrs Markup.nil
        · rw [if_neg hvoid] at htag ⊢
          simpa [endTag] using Markup.element htag hattrs hcontent Markup.nil
      · rwa [htmlChars]

/-- Nodes that keep to a vocabulary at every depth are written as properly nested HTML. -/
theorem markup_htmlCharsOf {v : Vocabulary} {ns : List Node} (h : ∀ m ∈ allOf ns, m.Keeps v) :
    Markup v (htmlCharsOf ns) :=
  markup_htmlCharsOf_of fun n hn => markup_htmlChars n fun m hm => h m (mem_allOf.mpr ⟨n, hn, hm⟩)

end Node
end MarkdownNodes
