import MarkdownNodes.Proofs.Render.Rules
import MarkdownNodes.Proofs.Render.Strictness

/-! The tokens that are reached and the nodes they leave. In document order, each token that is reached
and shows has a node of its own somewhere in the drawing: the one that it is drawn as alone. -/

namespace MarkdownNodes

section Lists

variable {α β : Type} {R : α → β → Prop}

theorem sublistForall₂_append {as as' : List α} {bs bs' : List β} (h : List.SublistForall₂ R as bs)
    (h' : List.SublistForall₂ R as' bs') : List.SublistForall₂ R (as ++ as') (bs ++ bs') := by
  obtain ⟨cs, hcs, hsub⟩ := List.sublistForall₂_iff.mp h
  obtain ⟨cs', hcs', hsub'⟩ := List.sublistForall₂_iff.mp h'
  exact List.sublistForall₂_iff.mpr ⟨cs ++ cs', List.rel_append hcs hcs', hsub.append hsub'⟩

theorem sublistForall₂_flatMap {γ : Type} {l : List γ} {f : γ → List α} {g : γ → List β}
    (h : ∀ c ∈ l, List.SublistForall₂ R (f c) (g c)) :
    List.SublistForall₂ R (l.flatMap f) (l.flatMap g) := by
  induction l with
  | nil => exact List.SublistForall₂.nil
  | cons c l ih =>
      exact sublistForall₂_append (h c List.mem_cons_self) (ih fun d hd => h d (List.mem_cons_of_mem c hd))

theorem sublistForall₂_of_sublist_right {as : List α} {bs bs' : List β} (h : List.SublistForall₂ R as bs)
    (hsub : bs.Sublist bs') : List.SublistForall₂ R as bs' := by
  obtain ⟨cs, hcs, hcsbs⟩ := List.sublistForall₂_iff.mp h
  exact List.sublistForall₂_iff.mpr ⟨cs, hcs, hcsbs.trans hsub⟩

theorem sublistForall₂_of_sublist_left {as as' : List α} {bs : List β} (h : List.SublistForall₂ R as bs)
    (hsub : as'.Sublist as) : List.SublistForall₂ R as' bs := by
  induction h generalizing as' with
  | nil => exact List.sublist_nil.mp hsub ▸ List.SublistForall₂.nil
  | cons hR _ ih =>
      cases hsub with
      | cons _ hsub => exact (ih hsub).cons_right
      | cons_cons _ hsub => exact List.SublistForall₂.cons hR (ih hsub)
  | cons_right _ ih => exact (ih hsub).cons_right

theorem sublistForall₂_imp_of_mem {S : α → β → Prop} {as : List α} {bs : List β}
    (h : List.SublistForall₂ R as bs) (himp : ∀ a ∈ as, ∀ b ∈ bs, R a b → S a b) :
    List.SublistForall₂ S as bs := by
  induction h with
  | nil => exact List.SublistForall₂.nil
  | cons hR _ ih =>
      exact List.SublistForall₂.cons (himp _ List.mem_cons_self _ List.mem_cons_self hR)
        (ih fun a ha b hb => himp a (List.mem_cons_of_mem _ ha) b (List.mem_cons_of_mem _ hb))
  | cons_right _ ih =>
      exact List.SublistForall₂.cons_right (ih fun a ha b hb => himp a ha b (List.mem_cons_of_mem _ hb))

theorem sublistForall₂_imp {S : α → β → Prop} {as : List α} {bs : List β}
    (h : List.SublistForall₂ R as bs) (himp : ∀ a ∈ as, ∀ b, R a b → S a b) : List.SublistForall₂ S as bs :=
  sublistForall₂_imp_of_mem h fun a ha b _ => himp a ha b

end Lists

namespace Renderer

open Node

/-- The node that a token in its place is drawn as. -/
def Draws (policy : Policy) (s : Place × Token) (n : Node) : Prop := draw policy s.1 s.2 = [n]

/-- The tokens among these that show. -/
def shown (l : List (Place × Token)) : List (Place × Token) := l.filter fun s => s.1.shows s.2

theorem shown_cons (s : Place × Token) (l : List (Place × Token)) :
    shown (s :: l) = if s.1.shows s.2 then s :: shown l else shown l := List.filter_cons

theorem shown_flatMap {α : Type} (l : List α) (f : α → List (Place × Token)) :
    shown (l.flatMap f) = l.flatMap fun a => shown (f a) := List.filter_flatMap

theorem sublist_inner_ofTable (header rows : List Node) :
    (allOf header ++ allOf rows).Sublist (allOf (ofTable header rows).inner) := by
  have hcells : (allOf header).Sublist (allOf [(element "thead").hold [ofRow header]]) := by
    simp only [allOf_cons, allOf_nil, List.append_nil, all_eq, inner_hold, inner_ofRow]
    exact (List.sublist_cons_self _ _).trans (List.sublist_cons_self _ _)
  have hrows : (allOf rows).Sublist (allOf [(element "tbody").hold rows]) := by
    simp only [allOf_cons, allOf_nil, List.append_nil, all_eq, inner_hold]
    exact List.sublist_cons_self _ _
  rw [ofTable, inner_hold, ← List.singleton_append, allOf_append]
  exact hcells.append hrows

/-- What stands in the parts stands inside the nodes that a rule makes of them, in the same order. -/
theorem gather_sublist_inside (policy : Policy) (place : Place) (t : Token) (unknown : Node)
    (parts : Part → List Node) :
    ((recipeIn policy place t).gather [] fun part => allOf (parts part)).Sublist
      (allOf (((recipeIn policy place t).nodes unknown parts).flatMap inner)) := by
  rcases t with _ | _ | _ | _ | _ | _ | _ | _ | _ | _ | ⟨_, _, _ | _, _⟩ <;> cases place <;>
    simp [sublist_inner_ofTable]

/-- The tokens that are reached from a token and show leave their nodes in its drawing. -/
def Leaves (policy : Policy) (t : Token) : Prop :=
  ∀ place, List.SublistForall₂ (Draws policy) (shown (t.reached place)) (allOf (draw policy place t))

section Steps

variable {policy : Policy}

theorem leaves_drawOf_of (place : Place) {ts : List Token} (h : ∀ t ∈ ts, Leaves policy t) :
    List.SublistForall₂ (Draws policy) (shown (Token.reachedOf place ts))
      (allOf (drawOf policy place ts)) := by
  rw [Token.reachedOf, shown_flatMap, drawOf, allOf_flatMap]
  exact sublistForall₂_flatMap fun t ht => h t ht place

/-- Where the drawings of things stand inside nodes made for them, so does what they leave. -/
theorem leaves_map {α : Type} {place : Place} {l : List α} {tokens : α → List Token} {f : α → Node}
    (h : ∀ a ∈ l, List.SublistForall₂ (Draws policy) (shown (Token.reachedOf place (tokens a)))
      (allOf (f a).inner)) :
    List.SublistForall₂ (Draws policy) (shown (Token.reachedOf place (l.flatMap tokens)))
      (allOf (l.map f)) := by
  rw [Token.reachedOf, List.flatMap_assoc, shown_flatMap, allOf_eq_flatMap, List.flatMap_map]
  refine sublistForall₂_flatMap fun a ha => ?_
  rw [all_eq]
  exact (h a ha).cons_right

theorem leaves_drawCells_of (header : Bool) {cells : List (Cell Token)}
    (h : ∀ cell ∈ cells, ∀ t ∈ cell.tokens, Leaves policy t) :
    List.SublistForall₂ (Draws policy) (shown (Token.reachedOf .inline (cells.flatMap Cell.tokens)))
      (allOf (cells.map (drawCell policy header))) := by
  refine leaves_map fun cell hcell => ?_
  rw [drawCell, inner_ofCell]
  exact leaves_drawOf_of .inline (h cell hcell)

theorem leaves_drawPart_of {t : Token} (h : ∀ u ∈ t.inner, Leaves policy u) (part : Part) :
    List.SublistForall₂ (Draws policy) (shown (Token.reachedOf part.place (part.tokens t)))
      (allOf (drawPart policy t part)) := by
  cases part with
  | children level =>
      exact leaves_drawOf_of level.place fun u hu => h u (Token.mem_inner_of_mem_children hu)
  | items =>
      refine leaves_map fun item hitem => ?_
      rw [drawItem, Policy.inner_item, allOf_append]
      have hblocks := leaves_drawOf_of .block fun u hu => h u (Token.mem_inner_of_mem_items hitem hu)
      exact sublistForall₂_of_sublist_right hblocks (List.sublist_append_right _ _)
  | header =>
      exact leaves_drawCells_of true fun cell hcell u hu => h u (Token.mem_inner_of_mem_header hcell hu)
  | rows =>
      rw [Part.tokens, List.flatten_eq_flatMap, List.flatMap_assoc]
      refine leaves_map fun row hrow => ?_
      rw [drawRow, inner_ofRow]
      exact leaves_drawCells_of false fun cell hcell u hu => h u (Token.mem_inner_of_mem_rows hrow hcell hu)

theorem sublistForall₂_gather {α β : Type} {R : α → β → Prop} {as : Part → List α} {bs : Part → List β}
    (recipe : Recipe) (h : ∀ part, List.SublistForall₂ R (as part) (bs part)) :
    List.SublistForall₂ R (recipe.gather [] as) (recipe.gather [] bs) := by
  cases recipe with
  | unknown => exact List.SublistForall₂.nil
  | leaf nodes => exact List.SublistForall₂.nil
  | around part nodes => exact h part
  | both first second nodes => exact sublistForall₂_append (h first) (h second)

/-- One step: what is reached one level down leaves its nodes inside those of the token. -/
theorem leaves_inside_of {place : Place} {t : Token} (hadmits : place.admits t = true)
    (h : ∀ u ∈ t.inner, Leaves policy u) :
    List.SublistForall₂ (Draws policy) (shown (Token.reachedOf t.innerPlace t.inner))
      (allOf ((draw policy place t).flatMap inner)) := by
  have hparts : shown (Token.reachedOf t.innerPlace t.inner) =
      (recipeIn policy place t).gather [] fun part => shown (Token.reachedOf part.place (part.tokens t)) := by
    have hgather := gather_tokens policy place t [] fun place u => shown (u.reached place)
    rw [if_pos hadmits] at hgather
    simp only [Token.reachedOf, shown_flatMap, hgather]
  rw [hparts, draw_eq]
  exact sublistForall₂_of_sublist_right (sublistForall₂_gather _ (leaves_drawPart_of h))
    (gather_sublist_inside policy place t _ _)

theorem leaves (policy : Policy) (t : Token) : Leaves policy t := by
  induction t using Token.induct with
  | step t ih =>
      intro place
      rw [Token.reached_eq]
      split
      case isFalse => exact List.SublistForall₂.nil
      case isTrue hadmits =>
        have hinside := leaves_inside_of hadmits ih
        by_cases hshows : place.shows t = true
        · obtain ⟨n, hn⟩ := exists_draw_eq_of_shows policy hshows
          rw [hn, List.flatMap_singleton] at hinside
          rw [shown_cons, if_pos hshows, hn, allOf_cons, allOf_nil, List.append_nil, all_eq]
          exact List.SublistForall₂.cons hn hinside
        · -- Only blank lines do not show, and there is nothing in them.
          rw [draw_of_not_shows (by simpa using hshows)] at hinside ⊢
          rw [shown_cons, if_neg hshows]
          exact hinside

/-- The tokens that are reached in a forest and show leave their nodes in its drawing, in document
order. -/
theorem leaves_drawOf (policy : Policy) (place : Place) (ts : List Token) :
    List.SublistForall₂ (Draws policy) (shown (Token.reachedOf place ts)) (allOf (drawOf policy place ts)) :=
  leaves_drawOf_of place fun t _ => leaves policy t

/-- In a run that succeeds, every token that is reached renders alone to its drawing. -/
theorem renderToken_of_mem_reachedOf {silent top : Bool} {place : Place} {ts : List Token} {nodes : List Node}
    (h : ((ofPolicy policy silent).renderTokens (place.level top) ts).outcome = .ok nodes)
    {s : Place × Token} (hs : s ∈ Token.reachedOf place ts) :
    ((ofPolicy policy silent).renderToken (s.1.level top) s.2).outcome = .ok (draw policy s.1 s.2) := by
  rw [renderTokens_eq_settle] at h
  rw [settles policy s.2 s.1 silent top]
  exact settle_ok_of_subset silent (Token.misfits_subset_of_mem_reachedOf hs) h _

/-- In a run that succeeds, the reached tokens of a sort that shows have in document order nodes of their
own in the output: each the one that its token is drawn as, and renders to alone. -/
theorem own_nodes_of_ok {silent top : Bool} {place : Place} {ts : List Token} {nodes : List Node}
    (h : ((ofPolicy policy silent).renderTokens (place.level top) ts).outcome = .ok nodes)
    {sort : Place × Token → Bool} (hshows : ∀ s, sort s = true → s.1.shows s.2 = true) :
    List.SublistForall₂
      (fun s n => Draws policy s n ∧
        ((ofPolicy policy silent).renderToken (s.1.level top) s.2).outcome = .ok [n])
      ((Token.reachedOf place ts).filter sort) (allOf nodes) := by
  have hsort : ((Token.reachedOf place ts).filter sort).Sublist (shown (Token.reachedOf place ts)) :=
    List.monotone_filter_right _ hshows
  rw [eq_drawOf_of_ok h]
  refine sublistForall₂_imp (sublistForall₂_of_sublist_left (leaves_drawOf policy place ts) hsort) ?_
  intro s hs n hn
  refine ⟨hn, ?_⟩
  rw [renderToken_of_mem_reachedOf h (List.mem_of_mem_filter hs), show draw policy s.1 s.2 = [n] from hn]

end Steps

end Renderer
end MarkdownNodes
