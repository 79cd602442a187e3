import MarkdownNodes.Proofs.Node.Readable
import MarkdownNodes.Proofs.Render.Links

/-! The language of a block of code. It is written as a class of the block and of the code in it, and it is
escaped on the way as often as code and attributes are: by the host's way of escaping code, and once more
by the writer, as every attribute is. -/

namespace MarkdownNodes

/-- The language of a block of code. -/
def Token.language? : Token → Option String
  | .code _ _ lang _ => firstWord? lang
  | _ => none

/-- The blocks of code with a language that are reached in a forest. -/
def Token.codesOf (place : Place) (ts : List Token) : List (Place × Token) :=
  (reachedOf place ts).filter fun s => s.2.language?.isSome

namespace Node

/-- The node is written as code in a block, both with the same class: what stands in the quotes, with its
entities decoded. -/
def WritesClass (n : Node) (cls : List Char) : Prop :=
  ∃ value body, htmlChars n = "<pre class=\"".toList ++ value ++ "\"><code class=\"".toList ++ value ++
    "\">".toList ++ body ++ "</code></pre>".toList ∧ '"' ∉ value ∧ Text.decode value = cls

/-- There is but one class to be read in what is written. -/
theorem WritesClass.unique {n : Node} {cls cls' : List Char} (h : n.WritesClass cls) (h' : n.WritesClass cls') :
    cls = cls' := by
  obtain ⟨value, body, hhtml, hquote, hcls⟩ := h
  obtain ⟨value', body', hhtml', hquote', hcls'⟩ := h'
  have hplain : ∀ {l : List Char}, '"' ∉ l → ∀ c ∈ l, (c != '"') = true := by
    intro l hl c hc
    rw [bne_iff_ne]
    rintro rfl
    exact hl hc
  have hsame := hhtml.symm.trans hhtml'
  simp only [List.append_assoc] at hsame
  have hvalue := (append_inj_of_stop (hplain hquote) (hplain hquote') (by simp) (by simp)
    (List.append_cancel_left hsame)).1
  rw [← hcls, ← hcls', hvalue]

end Node

namespace Renderer

open Node

variable {policy : Policy}

theorem code_of_firstWord? (policy : Policy) {lang : Option String} {word : String}
    (h : firstWord? lang = some word) (s : String) (escaped : Bool) : ∃ body, policy.code s lang escaped =
      { kind := .element "pre", attrs := [("class", .str ("code--" ++ policy.escapeCode word true))],
        content := .nodes [
          { kind := .element "code", attrs := [("class", .str ("code--" ++ policy.escapeCode word true))],
            content := .html body }] } := by
  rw [Policy.code, h]
  exact ⟨_, rfl⟩

/-- The class of a block of code is its language as the host escapes it. -/
theorem writesClass_code {lang : Option String} {word : String} (h : firstWord? lang = some word) (s : String)
    (escaped : Bool) :
    (policy.code s lang escaped).WritesClass ("code--" ++ policy.escapeCode word true).toList := by
  obtain ⟨body, hcode⟩ := code_of_firstWord? policy h s escaped
  refine ⟨Text.escapeAll ("code--" ++ policy.escapeCode word true).toList, body.toList, ?_, ?_,
    Text.decode_escapeAll _⟩
  · have hpre : staysEmpty "pre" = false := by decide
    have hinner : staysEmpty "code" = false := by decide
    rw [hcode]
    simp [htmlChars, contentHtmlChars, htmlCharsOf, startTag, endTag, attrChars, hpre, hinner]
  · exact fun hquote => (Text.inert_escapeAll _).1 _ hquote (by decide)

theorem shows_of_language? (s : Place × Token) (h : s.2.language?.isSome = true) : s.1.shows s.2 = true := by
  rcases s with ⟨_ | _, t⟩ <;> cases t <;> simp_all [Token.language?, Place.shows]

/-- A block of code with a language is drawn as one that is written with the language as its class. -/
theorem writesClass_of_draws {place : Place} {t : Token} {n : Node} (hadmits : place.admits t = true)
    (hn : draw policy place t = [n]) {word : String} (hword : t.language? = some word) :
    n.WritesClass ("code--" ++ policy.escapeCode word true).toList := by
  cases t with
  | code raw s lang escaped =>
      cases place with
      | block =>
          rw [draw_eq] at hn
          cases hn
          exact writesClass_code hword s escaped
      | inline => cases hadmits
  | _ => cases hword

/-- Escaping the language in full escapes the whole class. -/
theorem class_of_escapeHtml (word : String) :
    ("code--" ++ Text.escapeHtml word true).toList = Text.escapeAll ("code--" ++ word).toList := by
  have hcode : Text.escapeAll "code--".toList = "code--".toList := Text.escapeAll_of_plain (by simp)
  calc ("code--" ++ Text.escapeHtml word true).toList
      _ = Text.escapeAll "code--".toList ++ Text.escapeAll word.toList := by
        rw [String.toList_append, Text.toList_escapeHtml_full, hcode]
      _ = Text.escapeAll ("code--" ++ word).toList := by
        rw [String.toList_append, Text.escapeAll, Text.escapeAll, Text.escapeAll, List.flatMap_append]

/-- How the language of a block of code is written. -/
structure WritesLanguage (policy : Policy) (word : String) (n : Node) : Prop where
  /-- The class is the language as the host escapes it. -/
  host : n.WritesClass ("code--" ++ policy.escapeCode word true).toList
  /-- Where the host escapes in full, the class has to be decoded once more to give the language. -/
  twice : policy.escapeCode = Text.escapeHtml →
    ∃ cls, n.WritesClass cls ∧ Text.decode cls = ("code--" ++ word).toList
  /-- It then is the language only if there is nothing to escape. -/
  once : policy.escapeCode = Text.escapeHtml →
    (n.WritesClass ("code--" ++ word).toList ↔ ∀ c ∈ word.toList, c ∉ ['<', '>', '"', '\'', '&'])

theorem writesLanguage_of_draws {place : Place} {t : Token} {n : Node} (hadmits : place.admits t = true)
    (hn : draw policy place t = [n]) {word : String} (hword : t.language? = some word) :
    WritesLanguage policy word n := by
  have hclass := writesClass_of_draws hadmits hn hword
  have hfull : policy.escapeCode = Text.escapeHtml →
      n.WritesClass (Text.escapeAll ("code--" ++ word).toList) := by
    intro hescape
    rwa [hescape, class_of_escapeHtml] at hclass
  refine ⟨hclass, fun hescape => ⟨_, hfull hescape, Text.decode_escapeAll _⟩, fun hescape => ?_⟩
  have hplain : (∀ c ∈ ("code--" ++ word).toList, c ∉ ['<', '>', '"', '\'', '&']) ↔
      ∀ c ∈ word.toList, c ∉ ['<', '>', '"', '\'', '&'] := by
    rw [String.toList_append, List.forall_mem_append]
    exact and_iff_right (by simp)
  rw [← hplain, ← Text.escapeAll_eq_self_iff]
  constructor
  · exact (hfull hescape).unique
  · intro hself
    exact hself ▸ hfull hescape

/-- A run without extensions that succeeds. Every block of code with a language that is reached has in
document order a node of its own in the output, the one that it renders to alone; this stands as it is in
what is written, and the language in it as the host escapes it and then escaped as attributes are. -/
theorem language_is_escaped_twice (policy : Policy) (silent top : Bool) (place : Place) (ts : List Token)
    {nodes : List Node}
    (h : ((ofPolicy policy silent).renderTokens (place.level top) ts).outcome = .ok nodes) :
    List.SublistForall₂
      (fun s n =>
        ((ofPolicy policy silent).renderToken (s.1.level top) s.2).outcome = .ok [n] ∧
          htmlChars n <:+: (html nodes).toList ∧
          ∀ word, s.2.language? = some word → WritesLanguage policy word n)
      (Token.codesOf place ts) (allOf nodes) := by
  refine sublistForall₂_imp_of_mem (own_nodes_of_ok h shows_of_language?) ?_
  rintro s hs n hn ⟨hdraws, hrenders⟩
  have hadmits := Token.admits_of_mem_reachedOf (List.mem_of_mem_filter hs)
  exact ⟨hrenders, htmlChars_infix_of_ok h hn, fun word hword => writesLanguage_of_draws hadmits hdraws hword⟩

/-- A language with an ampersand, in a list item. -/
theorem language_is_escaped_twice_of_ampersand_in_item :
    ∃ nodes, ((ofPolicy {} false).renderTokens (Place.block.level true)
        [.listItem { tokens := [.code "" "x" (some "a&b c") false] }]).outcome = .ok nodes ∧
      List.SublistForall₂
        (fun s n =>
          ((ofPolicy {} false).renderToken (s.1.level true) s.2).outcome = .ok [n] ∧
            htmlChars n <:+: (html nodes).toList ∧
            ∀ word, s.2.language? = some word → WritesLanguage {} word n)
        (Token.codesOf .block [.listItem { tokens := [.code "" "x" (some "a&b c") false] }]) (allOf nodes) :=
  ⟨_, rfl, language_is_escaped_twice {} false true .block
    [.listItem { tokens := [.code "" "x" (some "a&b c") false] }] rfl⟩

/-- The language of a block of code is not always what its class comes to when it is decoded. -/
theorem ampersand_in_language_is_escaped_twice :
    ¬ ∀ (raw s lang : String) (escaped : Bool) (word : String), firstWord? (some lang) = some word →
      ∃ n, ((ofPolicy {} false).renderBlocks [.code raw s (some lang) escaped]).outcome = .ok [n] ∧
        n.WritesClass ("code--" ++ word).toList := by
  intro h
  have hword : firstWord? (some "a&b") = some "a&b" := by decide
  obtain ⟨n, hn, honce⟩ := h "" "x" "a&b" false "a&b" hword
  have hrun : ((ofPolicy {} false).renderBlocks [.code "" "x" (some "a&b") false]).outcome =
      .ok [Policy.code {} "x" (some "a&b") false] := rfl
  obtain rfl : n = Policy.code {} "x" (some "a&b") false := by simpa using hn.symm.trans hrun
  exact absurd (honce.unique (writesClass_code hword "x" false)) (by decide)

end Renderer
end MarkdownNodes
