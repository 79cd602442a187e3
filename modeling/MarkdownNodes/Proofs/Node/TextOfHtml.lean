import MarkdownNodes.Proofs.Node.Markup

/-! The text of nodes, read off their HTML. All that stands in tags is deleted, and the entities in what is left are
decoded. That is the text of the nodes, unless trusted HTML or a name brings markup of its own, or there is text in an
element that is kept empty. -/

namespace MarkdownNodes

namespace Text

/-- The text outside of tags: from a `<` to the next `>` all is deleted. The flag says whether a tag has begun. -/
def outsideTags (inTag : Bool) : List Char → List Char
  | [] => []
  | c :: cs =>
      if inTag then outsideTags (c != '>') cs
      else if c = '<' then outsideTags true cs
      else c :: outsideTags false cs

/-- The text with all tags deleted. -/
def withoutTags (cs : List Char) : List Char := outsideTags false cs

theorem outsideTags_append_of_text {cs : List Char} (h : '<' ∉ cs) (rest : List Char) :
    outsideTags false (cs ++ rest) = cs ++ outsideTags false rest := by
  induction cs with
  | nil => rfl
  | cons c cs ih =>
      have hc : c ≠ '<' := (List.ne_of_not_mem_cons h).symm
      have hcs : '<' ∉ cs := List.not_mem_of_not_mem_cons h
      simp [outsideTags, hc, ih hcs]

theorem outsideTags_of_inside {cs : List Char} (h : '>' ∉ cs) (rest : List Char) :
    outsideTags true (cs ++ '>' :: rest) = outsideTags false rest := by
  induction cs with
  | nil => simp [outsideTags]
  | cons c cs ih =>
      have hc : (c != '>') = true := by simpa using (List.ne_of_not_mem_cons h).symm
      have hcs : '>' ∉ cs := List.not_mem_of_not_mem_cons h
      rw [List.cons_append, outsideTags, if_pos rfl, hc, ih hcs]

/-- A whole tag is deleted. -/
theorem outsideTags_tag {cs : List Char} (h : '>' ∉ cs) (rest : List Char) :
    outsideTags false ('<' :: cs ++ '>' :: rest) = outsideTags false rest := by
  rw [List.cons_append, outsideTags, if_neg Bool.false_ne_true, if_pos rfl, outsideTags_of_inside h]

theorem not_mem_escapeAll {c : Char} (h : c ∈ ['<', '>', '"', '\'']) (cs : List Char) : c ∉ escapeAll cs :=
  fun hmem => (inert_escapeAll cs).1 c hmem h

end Text

namespace Node

/-- There is no character in the name that HTML treats as special. -/
def PlainName (name : String) : Prop := ∀ c ∈ name.toList, c ∉ ['<', '>', '"', '\'', '&']

/-- The text of the node shows in HTML, as far as it is for the node itself: it has plain names and no trusted HTML,
and if it is kept empty there is no text in it. -/
structure ShowsText (n : Node) : Prop where
  tag : ∀ tag, n.kind = .element tag → PlainName tag
  attrs : ∀ name ∈ n.attrs.names, PlainName name
  html : ∀ s, n.content ≠ .html s
  void : ∀ tag, n.kind = .element tag → staysEmpty tag = true → n.textChars = []

theorem textChars_of_empty {n : Node} (h : n.content = .empty) : n.textChars = [] := by
  rcases n with ⟨kind, attrs, content⟩
  rw [textChars, show content = .empty from h, contentTextChars]

theorem PlainName.not_mem {name : String} (h : PlainName name) : '>' ∉ name.toList := fun hmem => h '>' hmem (by simp)

/-! ### Tags -/

theorem not_mem_attrChars {attr : String × AttrValue} (h : PlainName attr.1) : '>' ∉ attrChars attr := by
  have hname := h.not_mem
  rcases attr with ⟨name, s | n | _ | _⟩
  · simpa [attrChars, hname] using Text.not_mem_escapeAll (by simp) s.toList
  · simpa [attrChars, hname] using fun hmem => plain_int n '>' hmem (by simp)
  · simp [attrChars]
  · simpa [attrChars] using hname

theorem outsideTags_startTag {tag : String} {attrs : Entries AttrValue} (htag : PlainName tag)
    (hattrs : ∀ name ∈ attrs.names, PlainName name) (rest : List Char) :
    Text.outsideTags false (startTag tag attrs ++ rest) = Text.outsideTags false rest := by
  have hinside : '>' ∉ tag.toList ++ attrs.flatMap attrChars := by
    rw [List.mem_append, List.mem_flatMap, not_or]
    refine ⟨htag.not_mem, ?_⟩
    rintro ⟨attr, hattr, hmem⟩
    exact not_mem_attrChars (hattrs attr.1 (List.mem_map_of_mem hattr)) hmem
  simpa [startTag] using Text.outsideTags_tag hinside rest

theorem outsideTags_endTag {tag : String} (htag : PlainName tag) (rest : List Char) :
    Text.outsideTags false (endTag tag ++ rest) = Text.outsideTags false rest := by
  have hinside : '>' ∉ '/' :: tag.toList := by simpa using htag.not_mem
  simpa [endTag] using Text.outsideTags_tag hinside rest

/-! ### Nodes -/

/-- What is left of the node's HTML without tags is its text, escaped. -/
def LeavesText (n : Node) : Prop :=
  ∀ rest, Text.outsideTags false (htmlChars n ++ rest) = Text.escapeAll n.textChars ++ Text.outsideTags false rest

theorem outsideTags_htmlCharsOf_of {ns : List Node} (h : ∀ n ∈ ns, n.LeavesText) (rest : List Char) :
    Text.outsideTags false (htmlCharsOf ns ++ rest) =
      Text.escapeAll (textCharsOf ns) ++ Text.outsideTags false rest := by
  induction ns with
  | nil => simp [htmlCharsOf, textCharsOf, Text.escapeAll]
  | cons n ns ih =>
      obtain ⟨hn, hns⟩ := List.forall_mem_cons.mp h
      rw [htmlCharsOf, textCharsOf, List.append_assoc, hn, ih hns, Text.escapeAll_append, List.append_assoc]

theorem outsideTags_contentHtmlChars {n : Node} (hn : n.ShowsText) (h : ∀ m ∈ n.inner, m.LeavesText)
    (rest : List Char) : Text.outsideTags false (contentHtmlChars n.content ++ rest) =
      Text.escapeAll n.textChars ++ Text.outsideTags false rest := by
  rcases n with ⟨kind, attrs, _ | s | s | ns⟩
  · simp [contentHtmlChars, textChars, contentTextChars, Text.escapeAll]
  · exact Text.outsideTags_append_of_text (Text.not_mem_escapeAll (by simp) s.toList) rest
  · exact absurd rfl (hn.html s)
  · exact outsideTags_htmlCharsOf_of h rest

theorem leavesText (n : Node) (h : ∀ m ∈ n.all, m.ShowsText) : n.LeavesText := by
  induction n using induct with
  | step n ih =>
      intro rest
      rw [all_eq] at h
      have hn : n.ShowsText := h n List.mem_cons_self
      have hinner : ∀ m ∈ n.inner, m.LeavesText := fun m hm =>
        ih m hm fun k hk => h k (List.mem_cons_of_mem n (mem_allOf.mpr ⟨m, hm, hk⟩))
      have hcontent := outsideTags_contentHtmlChars hn hinner
      rcases n with ⟨tag | _, attrs, content⟩
      · have htag := hn.tag tag rfl
        rw [htmlChars, List.append_assoc, outsideTags_startTag htag hn.attrs]
        split
        case isTrue hvoid =>
          rw [hn.void tag rfl hvoid]
          rfl
        case isFalse => rw [List.append_assoc, hcontent, outsideTags_endTag htag]
      · rw [htmlChars, hcontent]

/-- Where the text of all nodes shows, it is what is left of their HTML without tags, decoded. -/
theorem decode_withoutTags_html {ns : List Node} (h : ∀ n ∈ allOf ns, n.ShowsText) :
    Text.decode (Text.withoutTags (html ns).toList) = (text ns).toList := by
  have hleaves : ∀ n ∈ ns, n.LeavesText := fun n hn => leavesText n fun m hm => h m (mem_allOf.mpr ⟨n, hn, hm⟩)
  have hwhole := outsideTags_htmlCharsOf_of hleaves []
  rw [List.append_nil, Text.outsideTags, List.append_nil] at hwhole
  rw [html, text, String.toList_ofList, String.toList_ofList, Text.withoutTags, hwhole, Text.decode_escapeAll]

end Node
end MarkdownNodes
