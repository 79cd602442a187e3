import MarkdownNodes.Proofs.Node.Html
import MarkdownNodes.Proofs.Render.Edited

/-! Nested text. A text token among inline tokens may hold tokens of its own, which are shown in its place as a
group. The group shows in neither HTML nor text: a forest is rendered to the same HTML and the same text if the
tokens stand where the text token stood. -/

namespace MarkdownNodes

namespace Node

/-- The forests have the same HTML and the same text. -/
def SameShown (ns ns' : List Node) : Prop := htmlCharsOf ns = htmlCharsOf ns' ∧ textCharsOf ns = textCharsOf ns'

/-- The HTML of a node hangs on its content by the HTML of that only, and its text by the text. -/
theorem SameShown.hold {ns ns' : List Node} (h : SameShown ns ns') (n : Node) :
    SameShown [n.hold ns] [n.hold ns'] := by
  rcases n with ⟨tag | _, attrs, content⟩ <;>
    simp [SameShown, Node.hold, htmlCharsOf, htmlChars, contentHtmlChars, textCharsOf, textChars, contentTextChars,
      h.1, h.2]

theorem SameShown.append {ns ns' ms ms' : List Node} (h : SameShown ns ns') (hmore : SameShown ms ms') :
    SameShown (ns ++ ms) (ns' ++ ms') := by
  simp only [SameShown, htmlCharsOf_eq_flatten, textCharsOf_eq_flatMap] at h hmore ⊢
  simp [h.1, h.2, hmore.1, hmore.2]

theorem congruence_sameShown : Congruence SameShown where
  refl _ := ⟨rfl, rfl⟩
  trans h h' := ⟨h.1.trans h'.1, h.2.trans h'.2⟩
  append := SameShown.append
  hold := SameShown.hold

/-- A group leaves no trace of its own. -/
theorem sameShown_fragment (ns : List Node) : SameShown ns [fragment ns] := by
  simp [SameShown, fragment, htmlCharsOf, htmlChars, contentHtmlChars, textCharsOf, textChars, contentTextChars]

end Node

/-! ### Bringing nested tokens up -/

namespace Token

/-- The token is a text with tokens of its own. -/
def isNesting : Token → Bool
  | .text _ _ (some _) _ => true
  | _ => false

/-- Puts the tokens of a text that has any in its place, among inline tokens. -/
def unnest : Place → Token → List Token
  | .inline, .text _ _ (some ts) _ => ts
  | _, t => [t]

/-- The forest with all tokens of texts in the place of the text, among inline tokens at every depth. -/
def unnestedOf (place : Place) (ts : List Token) : List Token := editOf unnest place ts

theorem unnest_of_isNesting {t : Token} (h : t.isNesting = true) : unnest .inline t = t.inner := by
  rcases t with _ | _ | _ | _ | _ | _ | _ | _ | _ | _ | ⟨_, _, _ | _, _⟩ <;> simp [isNesting] at h
  simp [unnest, inner, children, items, header, rows]

theorem unnest_of_not {place : Place} {t : Token} (h : ¬ (place = .inline ∧ t.isNesting = true)) :
    unnest place t = [t] := by
  rcases t with _ | _ | _ | _ | _ | _ | _ | _ | _ | _ | ⟨_, _, _ | _, _⟩ <;> cases place <;>
    simp [isNesting, unnest] at h ⊢

theorem isNesting_edit (f : Place → Token → List Token) (t : Token) : (t.edit f).isNesting = t.isNesting := by
  rcases t with _ | _ | _ | _ | _ | _ | _ | _ | _ | _ | ⟨_, _, _ | _, _⟩ <;> simp [edit, isNesting]

theorem innerPlace_of_isNesting {t : Token} (h : t.isNesting = true) : t.innerPlace = .inline := by
  rcases t with _ | _ | _ | _ | _ | _ | _ | _ | _ | _ | ⟨_, _, _ | _, _⟩ <;> simp [isNesting, innerPlace] at h ⊢

theorem admits_of_isNesting {t : Token} (h : t.isNesting = true) (place : Place) : place.admits t = true := by
  rcases t with _ | _ | _ | _ | _ | _ | _ | _ | _ | _ | ⟨_, _, _ | _, _⟩ <;> cases place <;>
    simp [isNesting, Place.admits] at h ⊢

/-- None of the tokens that are reached is a text among inline tokens with tokens of its own. -/
def Unnested (place : Place) (ts : List Token) : Prop :=
  ∀ s ∈ reachedOf place ts, ¬ (s.1 = .inline ∧ s.2.isNesting = true)

theorem unnested_editOf_of {place : Place} {ts : List Token}
    (h : ∀ t ∈ ts, Unnested place (unnest place (t.edit unnest))) : Unnested place (editOf unnest place ts) := by
  intro s hs
  rw [editOf_eq_flatMap, reachedOf, List.flatMap_assoc] at hs
  obtain ⟨t, ht, hs⟩ := List.mem_flatMap.mp hs
  exact h t ht s hs

theorem unnested_unnest_edit (t : Token) : ∀ place, Unnested place (unnest place (t.edit unnest)) := by
  induction t using induct with
  | step t ih =>
      intro place
      have hinner : Unnested t.innerPlace (editOf unnest t.innerPlace t.inner) :=
        unnested_editOf_of fun u hu => ih u hu t.innerPlace
      by_cases hnesting : place = .inline ∧ t.isNesting = true
      · obtain ⟨rfl, ht⟩ := hnesting
        rw [unnest_of_isNesting (by rwa [isNesting_edit]), inner_edit unnest (admits_of_isNesting ht .inline)]
        rwa [innerPlace_of_isNesting ht] at hinner ⊢
      · rw [unnest_of_not (by rwa [isNesting_edit])]
        intro s hs
        rw [reachedOf, List.flatMap_singleton, reached_eq, admits_edit] at hs
        split at hs
        case isFalse => exact absurd hs List.not_mem_nil
        case isTrue hadmits =>
          rw [inner_edit unnest hadmits, innerPlace_edit] at hs
          rcases List.mem_cons.mp hs with rfl | hs
          · rwa [isNesting_edit]
          · exact hinner s hs

/-- Nothing is left to be brought up. -/
theorem unnested_unnestedOf (place : Place) (ts : List Token) : Unnested place (unnestedOf place ts) :=
  unnested_editOf_of fun t _ => unnested_unnest_edit t place

/-- A text inside a text comes up all the way, and one inside emphasis to its top. -/
example (raw s : String) (b : Bool) :
    unnestedOf .inline [.text raw s (some [.text raw s (some [.br raw]) b,
        .em raw s [.text raw s (some [.text raw s none b]) b]]) b] =
      [.br raw, .em raw s [.text raw s none b]] := rfl

end Token

namespace Renderer

theorem draw_of_isNesting (policy : Policy) {t : Token} (h : t.isNesting = true) :
    draw policy .inline t = [Node.fragment (drawOf policy .inline t.inner)] := by
  rw [draw_eq]
  rcases t with _ | _ | _ | _ | _ | _ | _ | _ | _ | _ | ⟨raw, s, _ | ts, escaped⟩ <;> simp [Token.isNesting] at h
  simp [drawPart, Level.place, Token.inner, Token.children, Token.items, Token.header, Token.rows]

/-- A text with tokens of its own is drawn as they are, but for the group around them. -/
theorem keepsDrawing_unnest (policy : Policy) : Token.KeepsDrawing Node.SameShown policy Token.unnest where
  drawn place t := by
    by_cases h : place = .inline ∧ t.isNesting = true
    · obtain ⟨rfl, ht⟩ := h
      rw [Token.unnest_of_isNesting ht, draw_of_isNesting policy ht]
      exact Node.sameShown_fragment _
    · rw [Token.unnest_of_not h, drawOf, List.flatMap_singleton]
      exact Node.congruence_sameShown.refl _
  kinds place t := by
    by_cases h : place = .inline ∧ t.isNesting = true
    · obtain ⟨rfl, ht⟩ := h
      rw [Token.unnest_of_isNesting ht, Token.misfits_of_admits (Token.admits_of_isNesting ht .inline),
        Token.innerPlace_of_isNesting ht]
    · rw [Token.unnest_of_not h, Token.misfitsOf, List.flatMap_singleton]

/-- Rendering without extensions, among inline tokens or among blocks. When the tokens of every text among inline
tokens, at every depth, are put in the place of the text, so that none with tokens of its own is left, the run
comes to nodes with the same HTML and the same text, or to the same error, and logs the same. -/
theorem nested_text_is_transparent (policy : Policy) (silent top : Bool) (place : Place) (ts : List Token) :
    Token.Unnested place (Token.unnestedOf place ts) ∧
      Run.Agree (fun ns ns' => Node.html ns = Node.html ns' ∧ Node.text ns = Node.text ns')
        ((ofPolicy policy silent).renderTokens (place.level top) (Token.unnestedOf place ts))
        ((ofPolicy policy silent).renderTokens (place.level top) ts) := by
  refine ⟨Token.unnested_unnestedOf place ts, ?_⟩
  have hagree := (keepsDrawing_unnest policy).renderTokens_editOf Node.congruence_sameShown silent top place ts
  refine hagree.imp fun ns ns' h => ?_
  rw [Node.html, Node.html, Node.text, Node.text, h.1, h.2]
  exact ⟨rfl, rfl⟩

end Renderer
end MarkdownNodes
