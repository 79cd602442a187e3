import Mathlib.Data.List.Basic
import Mathlib.Data.List.Flatten
import MarkdownNodes.Proofs.Token.Composed
import MarkdownNodes.Proofs.Token.Descent

/-! The text that a container carries when it is made by hand. It is put together of what its tokens carry, and
of these a paragraph, a heading and a quote give nothing to what is around them. So a container has the texts of
the leaves below it but for those in blocks below it, and has them all just if there is no text in such blocks. -/

namespace MarkdownNodes.Token

/-! ### Trees that are made by hand -/

/-- What is made around tokens: formatting and links, and the blocks that hold tokens. -/
inductive Container where
  | formatting (wrapper : Wrapper)
  | paragraph
  | heading (depth : UInt8)
  | blockquote

def Container.around : Container → List Token → Token
  | .formatting wrapper => wrapper.around
  | .paragraph => ofParagraph
  | .heading depth => ofHeading depth
  | .blockquote => ofBlockquote

/-- A token that is made by hand, as are all tokens inside. -/
inductive Assembled : Token → Prop where
  | text (s : String) : Assembled (ofText s)
  | codespan (s : String) : Assembled (ofCodespan s)
  | image (href : String) (title : Option String) (alt : String) : Assembled (ofImage href title alt)
  | html (s : String) (block : Bool) : Assembled (ofHtml s block)
  | lineBreak : Assembled lineBreak
  | around (container : Container) {ts : List Token} (h : ∀ t ∈ ts, Assembled t) :
      Assembled (container.around ts)

/-- The text that a container carries. -/
def containerText? : Token → Option String
  | .heading _ _ s _ | .paragraph _ s _ | .blockquote _ s _ | .link _ _ _ s _ => some s
  | .strong _ s _ | .em _ s _ | .del _ s _ => some s
  | _ => none

/-- The text of a leaf; other tokens are none. -/
def leafText? : Token → Option String
  | .text _ s none _ | .codespan _ s | .image _ _ _ s | .html _ s _ _ => some s
  | _ => none

/-- The texts of the leaves at every depth of a forest, put together in order. -/
def leafTextOf (ts : List Token) : String := String.join ((allOf ts).filterMap leafText?)

@[simp] theorem inner_around (container : Container) (ts : List Token) : (container.around ts).inner = ts := by
  rcases container with (_ | _ | _ | _) | _ | _ | _ <;> exact (List.append_nil _).trans (List.append_nil _)

@[simp] theorem containerText?_around (container : Container) (ts : List Token) :
    (container.around ts).containerText? = some (textOf ts) := by
  rcases container with (_ | _ | _ | _) | _ | _ | _ <;> rfl

@[simp] theorem leafText?_around (container : Container) (ts : List Token) :
    (container.around ts).leafText? = none := by
  rcases container with (_ | _ | _ | _) | _ | _ | _ <;> rfl

theorem assembled_of_mem_inner {t u : Token} (h : t.Assembled) (hu : u ∈ t.inner) : u.Assembled := by
  cases h with
  | around container h => exact h u (by rwa [inner_around] at hu)
  | _ => exact absurd hu List.not_mem_nil

theorem assembled_of_mem_all {t u : Token} (h : t.Assembled) (hu : u ∈ t.all) : u.Assembled := by
  induction t using induct with
  | step t ih =>
      rw [all_eq] at hu
      rcases List.mem_cons.mp hu with rfl | hinner
      · exact h
      · obtain ⟨v, hv, huv⟩ := List.mem_flatMap.mp hinner
        exact ih v hv (assembled_of_mem_inner h hv) huv

/-! ### Leaves inside blocks and outside -/

/-- The token is a block that is made around tokens. -/
def isBlock : Token → Bool
  | .heading .. | .paragraph .. | .blockquote .. => true
  | _ => false

/-- The tokens from a token down that neither are such blocks nor stand in one, in document order. -/
def flow (t : Token) : List Token := if t.isBlock then [] else t :: t.inner.attach.flatMap fun u => flow u.val
termination_by t
decreasing_by exact sizeOf_lt_of_mem_inner u.property

/-- The texts of the leaves of a forest that stand in no block, put together in order. -/
def flowTextOf (ts : List Token) : String := String.join ((ts.flatMap flow).filterMap leafText?)

theorem flow_eq (t : Token) : t.flow = if t.isBlock then [] else t :: t.inner.flatMap flow := by
  rw [flow, flatMap_attach]

/-- The text of the token if it is a leaf. -/
def leafChars (t : Token) : List Char := t.leafText?.elim [] String.toList

theorem toList_join_filterMap (ts : List Token) :
    (String.join (ts.filterMap leafText?)).toList = ts.flatMap leafChars := by
  rw [String.toList_join]
  induction ts with
  | nil => rfl
  | cons t ts ih => cases h : t.leafText? <;> simp [leafChars, h, ih]

/-- The texts of the leaves from a token down. -/
def allChars (t : Token) : List Char := t.all.flatMap leafChars

/-- The texts of the leaves from a token down that stand in no block. -/
def flowChars (t : Token) : List Char := t.flow.flatMap leafChars

theorem allChars_eq (t : Token) : t.allChars = t.leafChars ++ t.inner.flatMap allChars := by
  rw [allChars, all_eq, List.flatMap_cons, allOf, List.flatMap_assoc]
  rfl

theorem flowChars_eq (t : Token) :
    t.flowChars = if t.isBlock then [] else t.leafChars ++ t.inner.flatMap flowChars := by
  rw [flowChars, flow_eq]
  split
  case isTrue => rfl
  case isFalse =>
    rw [List.flatMap_cons, List.flatMap_assoc]
    rfl

theorem toList_leafTextOf (ts : List Token) : (leafTextOf ts).toList = ts.flatMap allChars := by
  rw [leafTextOf, toList_join_filterMap, allOf, List.flatMap_assoc]
  rfl

theorem toList_flowTextOf (ts : List Token) : (flowTextOf ts).toList = ts.flatMap flowChars := by
  rw [flowTextOf, toList_join_filterMap, List.flatMap_assoc]
  rfl

theorem flowChars_sublist (t : Token) : t.flowChars.Sublist t.allChars := by
  induction t using induct with
  | step t ih =>
      rw [flowChars_eq, allChars_eq]
      split
      case isTrue => exact List.nil_sublist _
      case isFalse => exact (List.Sublist.refl _).append (List.Sublist.flatMap_right t.inner ih)

/-- Lists that leave something out here and there come to the same only if they leave out nothing. -/
theorem flatMap_eq_flatMap_iff {α β : Type} {l : List α} {f g : α → List β} (h : ∀ a ∈ l, (f a).Sublist (g a)) :
    l.flatMap f = l.flatMap g ↔ ∀ a ∈ l, f a = g a := by
  refine ⟨fun heq => ?_, List.flatMap_congr⟩
  induction l with
  | nil => exact List.forall_mem_nil _
  | cons a l ih =>
      obtain ⟨hfirst, hrest⟩ := List.forall_mem_cons.mp h
      have hlengths := congrArg List.length heq
      have hle := hfirst.length_le
      have hle' := (List.Sublist.flatMap_right l hrest).length_le
      simp only [List.flatMap_cons, List.length_append] at hlengths
      have hsame : f a = g a := hfirst.eq_of_length (by omega)
      rw [List.flatMap_cons, List.flatMap_cons, hsame] at heq
      exact List.forall_mem_cons.mpr ⟨hsame, ih hrest (List.append_cancel_left heq)⟩

theorem allChars_eq_nil_of_mem_all {t u : Token} (h : t.allChars = []) (hu : u ∈ t.all) : u.allChars = [] := by
  induction t using induct with
  | step t ih =>
      rw [all_eq] at hu
      rcases List.mem_cons.mp hu with rfl | hinner
      · exact h
      · obtain ⟨v, hv, huv⟩ := List.mem_flatMap.mp hinner
        rw [allChars_eq] at h
        exact ih v hv (List.flatMap_eq_nil_iff.mp (List.append_eq_nil_iff.mp h).2 v hv) huv

/-- No leaf with a text stands in a block just if the leaves outside of blocks have all the text. -/
theorem flowChars_eq_allChars_iff (t : Token) :
    t.flowChars = t.allChars ↔ ∀ u ∈ t.all, u.isBlock = true → u.allChars = [] := by
  induction t using induct with
  | step t ih =>
      rw [flowChars_eq]
      split
      case isTrue hblock =>
        refine ⟨fun h u hu _ => allChars_eq_nil_of_mem_all h.symm hu, fun h => ?_⟩
        exact (h t (mem_all_self t) hblock).symm
      case isFalse hflow =>
        have hinner : ∀ u ∈ t.inner, u.flowChars.Sublist u.allChars := fun u _ => flowChars_sublist u
        rw [allChars_eq, List.append_cancel_left_eq, flatMap_eq_flatMap_iff hinner, all_eq, List.forall_mem_cons]
        constructor
        · intro h
          refine ⟨fun hblock => absurd hblock hflow, fun u hu => ?_⟩
          obtain ⟨v, hv, huv⟩ := List.mem_flatMap.mp hu
          exact (ih v hv).mp (h v hv) u huv
        · rintro ⟨_, h⟩ v hv
          exact (ih v hv).mpr fun u hu => h u (List.mem_flatMap.mpr ⟨v, hv, hu⟩)

theorem flowTextOf_eq_leafTextOf_iff (ts : List Token) :
    flowTextOf ts = leafTextOf ts ↔ ∀ u ∈ allOf ts, u.isBlock = true → leafTextOf u.inner = "" := by
  have hblock : ∀ u : Token, u.isBlock = true → (u.allChars = [] ↔ leafTextOf u.inner = "") := by
    intro u hu
    have hleaf : u.leafChars = [] := by
      cases u <;> first | rfl | cases hu
    rw [← String.toList_inj, toList_leafTextOf, allChars_eq, hleaf, List.nil_append]
    rfl
  rw [← String.toList_inj, toList_flowTextOf, toList_leafTextOf,
    flatMap_eq_flatMap_iff fun t _ => flowChars_sublist t]
  constructor
  · intro h u hu hisBlock
    obtain ⟨t, ht, hut⟩ := List.mem_flatMap.mp hu
    exact (hblock u hisBlock).mp ((flowChars_eq_allChars_iff t).mp (h t ht) u hut hisBlock)
  · intro h t ht
    refine (flowChars_eq_allChars_iff t).mpr fun u hu hisBlock => ?_
    exact (hblock u hisBlock).mpr (h u (List.mem_flatMap.mpr ⟨t, ht, hu⟩) hisBlock)

/-! ### What is carried -/

/-- A token that is made by hand gives to what is around it the texts of its leaves that stand in no block. -/
theorem toList_ownText_of_assembled {t : Token} (h : t.Assembled) : t.ownText.toList = t.flowChars := by
  induction h with
  | @around container ts h ih =>
      rw [flowChars_eq, leafChars, leafText?_around, inner_around]
      cases container with
      | formatting wrapper =>
          have hflow : (wrapper.around ts).isBlock = false := by cases wrapper <;> rfl
          rw [Container.around, ownText_around, toList_textOf, hflow, List.flatMap_congr ih]
          rfl
      | _ => rfl
  | _ =>
      rw [flowChars_eq]
      exact (List.append_nil _).symm

theorem textOf_eq_flowTextOf {ts : List Token} (h : ∀ t ∈ ts, t.Assembled) : textOf ts = flowTextOf ts := by
  rw [← String.toList_inj, toList_textOf, toList_flowTextOf]
  exact List.flatMap_congr fun t ht => toList_ownText_of_assembled (h t ht)

/-- Every container in a tree that is made by hand carries the texts of the leaves below it that stand in no block
below it, in order. These are the texts of all leaves below it just if there is no text in such blocks. -/
theorem container_carries_flow {t u : Token} {s : String} (h : t.Assembled) (hu : u ∈ t.all)
    (hs : u.containerText? = some s) :
    s = flowTextOf u.inner ∧
      (s = leafTextOf u.inner ↔ ∀ v ∈ allOf u.inner, v.isBlock = true → leafTextOf v.inner = "") := by
  have hassembled := assembled_of_mem_all h hu
  have hflow : s = flowTextOf u.inner := by
    cases hassembled with
    | around container h =>
        rw [containerText?_around] at hs
        rw [inner_around, ← Option.some.inj hs, textOf_eq_flowTextOf h]
    | _ => cases hs
  exact ⟨hflow, by rw [hflow, flowTextOf_eq_leafTextOf_iff]⟩

/-- A quote of a paragraph, with strong text in it, and of text that stands in no paragraph. -/
def quoteOfParagraph : Token := ofBlockquote [ofParagraph [ofText "a", ofStrong [ofText "b"]], ofText "c"]

theorem assembled_quoteOfParagraph : quoteOfParagraph.Assembled := by
  have hstrong : Assembled (ofStrong [ofText "b"]) :=
    .around (.formatting .strong) (List.forall_mem_singleton.mpr (.text "b"))
  have hparagraph : Assembled (ofParagraph [ofText "a", ofStrong [ofText "b"]]) :=
    .around .paragraph (List.forall_mem_cons.mpr ⟨.text "a", List.forall_mem_singleton.mpr hstrong⟩)
  exact .around .blockquote (List.forall_mem_cons.mpr ⟨hparagraph, List.forall_mem_singleton.mpr (.text "c")⟩)

theorem leafTextOf_quoteOfParagraph : leafTextOf quoteOfParagraph.inner = "abc" := by
  simp [leafTextOf, allOf, all_eq, quoteOfParagraph, ofBlockquote, ofParagraph, ofStrong, ofText, inner, children,
    items, header, rows, leafText?]
  rfl

/-- The paragraph has all the text below it, and the quote has not. -/
theorem container_carries_flow_of_quoted_paragraph :
    quoteOfParagraph.Assembled ∧ quoteOfParagraph ∈ quoteOfParagraph.all ∧
      quoteOfParagraph.containerText? = some "c" ∧ "c" = flowTextOf quoteOfParagraph.inner ∧
      ¬ ∀ v ∈ allOf quoteOfParagraph.inner, v.isBlock = true → leafTextOf v.inner = "" := by
  have htext : quoteOfParagraph.containerText? = some "c" := by decide
  obtain ⟨hflow, hall⟩ := container_carries_flow assembled_quoteOfParagraph (mem_all_self _) htext
  refine ⟨assembled_quoteOfParagraph, mem_all_self _, htext, hflow, ?_⟩
  rw [← hall, leafTextOf_quoteOfParagraph]
  decide

/-- The text of a paragraph is not among the text that a quote around it carries. -/
theorem text_of_quoted_paragraph_is_lost : ¬ ∀ (t u : Token) (s : String), t.Assembled → u ∈ t.all →
    u.containerText? = some s → s = leafTextOf u.inner := by
  intro h
  have htext : quoteOfParagraph.containerText? = some "c" := by decide
  have hlost := h quoteOfParagraph quoteOfParagraph "c" assembled_quoteOfParagraph (mem_all_self _) htext
  rw [leafTextOf_quoteOfParagraph] at hlost
  exact absurd hlost (by decide)

end MarkdownNodes.Token
