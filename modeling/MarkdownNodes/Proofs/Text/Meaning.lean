import MarkdownNodes.Node.Html
import MarkdownNodes.Proofs.Text.Reference

/-! What escaped text means to a reader who decodes the entities. Full escaping is undone by decoding, and
soft escaping is not seen by it: the same entities begin at the same places before and after. The writer of
HTML escapes text and attribute values in full. -/

namespace MarkdownNodes.Text

/-! ### The entities in a text -/

theorem exists_escapeChar_of_mem_entities {entity : List Char} (h : entity ∈ entities) :
    ∃ c, escapeChar c = entity := by
  simp only [entities, List.mem_cons, List.not_mem_nil, or_false] at h
  rcases h with rfl | rfl | rfl | rfl | rfl
  · exact ⟨'&', rfl⟩
  · exact ⟨'<', rfl⟩
  · exact ⟨'>', rfl⟩
  · exact ⟨'"', rfl⟩
  · exact ⟨'\'', rfl⟩

/-- Where no entity begins, a character is decoded as itself. -/
theorem decode_cons_of_no_entity {c : Char} {rest : List Char}
    (h : ∀ entity ∈ entities, ¬ entity <+: c :: rest) : decode (c :: rest) = c :: decode rest := by
  have hnone : ∀ tail more : List Char, '&' :: tail ∈ entities → c = '&' → rest = tail ++ more → False := by
    rintro tail more hentity rfl rfl
    exact h _ hentity (List.prefix_append ('&' :: tail) more)
  rw [decode]
  · exact fun more => hnone ['a', 'm', 'p', ';'] more (by decide)
  · exact fun more => hnone ['l', 't', ';'] more (by decide)
  · exact fun more => hnone ['g', 't', ';'] more (by decide)
  · exact fun more => hnone ['q', 'u', 'o', 't', ';'] more (by decide)
  · exact fun more => hnone ['#', '3', '9', ';'] more (by decide)

/-- What becomes of a special character begins with an ampersand. -/
theorem exists_escapeSoft_of_special {c : Char} (h : c ∈ ['<', '>', '"', '\'', '&']) (rest : List Char) :
    ∃ more, escapeSoft (c :: rest) = '&' :: more := by
  rw [escapeSoft]
  split
  case isTrue => exact ⟨_, rfl⟩
  case isFalse =>
    simp only [List.mem_cons, List.not_mem_nil, or_false] at h
    rcases h with rfl | rfl | rfl | rfl | rfl <;> exact ⟨_, rfl⟩

/-- Soft escaping neither makes nor breaks a beginning that has no special characters. -/
theorem prefix_escapeSoft_iff {run : List Char} (hrun : ∀ c ∈ run, c ∉ ['<', '>', '"', '\'', '&'])
    (rest : List Char) : run <+: escapeSoft rest ↔ run <+: rest := by
  constructor
  · intro h
    induction run generalizing rest with
    | nil => exact List.nil_prefix
    | cons c run ih =>
        cases rest with
        | nil => exact h
        | cons d rest =>
            by_cases hd : d ∈ ['<', '>', '"', '\'', '&']
            · obtain ⟨more, hmore⟩ := exists_escapeSoft_of_special hd rest
              rw [hmore, List.cons_prefix_cons] at h
              exact absurd (by rw [h.1]; decide) (hrun c List.mem_cons_self)
            · rw [escapeSoft_cons_of_plain hd, List.cons_prefix_cons] at h
              rw [List.cons_prefix_cons]
              exact ⟨h.1, ih (fun e he => hrun e (List.mem_cons_of_mem c he)) rest h.2⟩
  · rintro ⟨more, rfl⟩
    rw [escapeSoft_append_of_plain hrun]
    exact List.prefix_append run _

/-- Behind an ampersand, soft escaping neither makes nor breaks an entity. -/
theorem entity_prefix_escapeSoft_iff {entity : List Char} (h : entity ∈ entities) (rest : List Char) :
    entity <+: '&' :: escapeSoft rest ↔ entity <+: '&' :: rest := by
  obtain ⟨tail, rfl, hplain⟩ := (reference_of_mem_entities h).exists_plain
  rw [List.cons_prefix_cons, List.cons_prefix_cons, prefix_escapeSoft_iff hplain]

/-- Soft escaping leaves a reference as it is. -/
theorem escapeSoft_append_of_reference {reference : List Char} (h : Reference reference) (more : List Char) :
    escapeSoft (reference ++ more) = reference ++ escapeSoft more := by
  obtain ⟨tail, rfl, hplain⟩ := h.exists_plain
  have hkept : completesReference (tail ++ more) = true :=
    (completesReference_iff _).mpr ⟨_, h, List.prefix_append ('&' :: tail) more⟩
  rw [List.cons_append, escapeSoft, hkept, escapeSoft_append_of_plain hplain]
  rfl

/-! ### Decoding what is escaped -/

/-- Decoding does not see soft escaping. -/
theorem decode_escapeSoft (cs : List Char) : decode (escapeSoft cs) = decode cs := by
  match cs with
  | [] => rfl
  | c :: rest =>
      by_cases hentity : ∃ entity ∈ entities, entity <+: c :: rest
      · obtain ⟨entity, hmem, more, hmore⟩ := hentity
        obtain ⟨d, rfl⟩ := exists_escapeChar_of_mem_entities hmem
        have hshorter : more.length < (c :: rest).length := by
          have hpos := length_pos_escapeChar d
          rw [← hmore, List.length_append]
          omega
        rw [← hmore, escapeSoft_append_of_reference (reference_of_mem_entities hmem), decode_escapeChar_append,
          decode_escapeChar_append, decode_escapeSoft more]
      · have hnone : ∀ entity ∈ entities, ¬ entity <+: c :: rest := fun entity hmem hbegins =>
          hentity ⟨entity, hmem, hbegins⟩
        have hrest := decode_escapeSoft rest
        rw [escapeSoft, decode_cons_of_no_entity hnone]
        split
        case isTrue hkept =>
          -- The ampersand begins a reference that is no entity, and what is escaped behind it makes none.
          obtain rfl : c = '&' := by simpa using (Bool.and_eq_true_iff.mp hkept).1
          rw [List.singleton_append, decode_cons_of_no_entity, hrest]
          intro entity hmem hbegins
          exact hnone entity hmem ((entity_prefix_escapeSoft_iff hmem rest).mp hbegins)
        case isFalse => rw [decode_escapeChar_append, hrest]
termination_by cs.length
decreasing_by
  · exact hshorter
  · exact Nat.lt_succ_self rest.length

/-! ### What the writer escapes -/

section Writer

variable (text : String)

theorem html_fragment_text (attrs : Entries AttrValue) :
    Node.html [{ kind := .fragment, attrs, content := .text text }] = escapeHtml text true := by
  rw [← String.toList_inj, toList_escapeHtml_full, Node.html, String.toList_ofList]
  simp [Node.htmlCharsOf, Node.htmlChars, Node.contentHtmlChars]

theorem html_element_text (tag : String) (attrs : Entries AttrValue) :
    Node.html [{ kind := .element tag, attrs, content := .text text }] =
      String.ofList (Node.startTag tag attrs) ++
        if Node.staysEmpty tag then "" else escapeHtml text true ++ String.ofList (Node.endTag tag) := by
  rw [← String.toList_inj, Node.html, String.toList_ofList]
  by_cases h : Node.staysEmpty tag = true <;>
    simp [Node.htmlCharsOf, Node.htmlChars, Node.contentHtmlChars, h, toList_escapeHtml_full]

theorem startTag_str (tag name : String) (before after : Entries AttrValue) :
    String.ofList (Node.startTag tag (before ++ (name, .str text) :: after)) =
      "<" ++ tag ++ String.ofList (before.flatMap Node.attrChars) ++ " " ++ name ++ "=\"" ++
        escapeHtml text true ++ "\"" ++ String.ofList (after.flatMap Node.attrChars) ++ ">" := by
  rw [← String.toList_inj]
  simp [Node.startTag, Node.attrChars, toList_escapeHtml_full]

theorem html_element (tag : String) (attrs : Entries AttrValue) (content : Node.Content Node) :
    ∃ body, Node.html [{ kind := .element tag, attrs, content }] = String.ofList (Node.startTag tag attrs) ++ body := by
  refine ⟨String.ofList (if Node.staysEmpty tag then [] else Node.contentHtmlChars content ++ Node.endTag tag), ?_⟩
  rw [← String.toList_inj, Node.html]
  simp [Node.htmlCharsOf, Node.htmlChars]

end Writer

/-- Escaping keeps the meaning of a text: decoding gives back what was escaped in full, and gives the same
before and after soft escaping. The writer escapes in just this way, in full: it is what it writes for text,
which an element surrounds with its tags, and for the value of an attribute that is a text, in its quotes. -/
theorem escaping_keeps_meaning (text : String) :
    decode (escapeHtml text true).toList = text.toList ∧
      decode (escapeHtml text false).toList = decode text.toList ∧
      (∀ attrs, Node.html [{ kind := .fragment, attrs, content := .text text }] = escapeHtml text true) ∧
      (∀ tag attrs, Node.html [{ kind := .element tag, attrs, content := .text text }] =
        String.ofList (Node.startTag tag attrs) ++
          if Node.staysEmpty tag then "" else escapeHtml text true ++ String.ofList (Node.endTag tag)) ∧
      ∀ tag name before after content, ∃ body,
        Node.html [{ kind := .element tag, attrs := before ++ (name, .str text) :: after, content }] =
          "<" ++ tag ++ String.ofList (before.flatMap Node.attrChars) ++ " " ++ name ++ "=\"" ++
            escapeHtml text true ++ "\"" ++ String.ofList (after.flatMap Node.attrChars) ++ ">" ++ body := by
  refine ⟨?full, ?soft, html_fragment_text text, html_element_text text, ?value⟩
  case full => rw [toList_escapeHtml_full, decode_escapeAll]
  case soft => rw [toList_escapeHtml_soft, decode_escapeSoft]
  case value =>
    intro tag name before after content
    obtain ⟨body, hbody⟩ := html_element tag (before ++ (name, .str text) :: after) content
    rw [startTag_str] at hbody
    exact ⟨body, hbody⟩

end MarkdownNodes.Text
