import MarkdownNodes.Proofs.Render.Agreement
import MarkdownNodes.Proofs.Render.Drawing
import MarkdownNodes.Proofs.Render.Rules
import MarkdownNodes.Proofs.Token.Edit

/-! Edits of forests and what is drawn of them. If an edit keeps the drawing of every single token up to a relation
that nodes keep around their content, and the kinds of its misfits, then the runs over a forest and over the edited
forest agree up to this relation. -/

namespace MarkdownNodes

/-! ### Relations that nodes keep -/

/-- A preorder of forests that is kept by what stands beside them and by every node around them. -/
structure Node.Congruence (R : List Node → List Node → Prop) : Prop where
  refl (ns : List Node) : R ns ns
  trans {ns ns' ns'' : List Node} (h : R ns ns') (h' : R ns' ns'') : R ns ns''
  append {ns ns' ms ms' : List Node} (h : R ns ns') (hmore : R ms ms') : R (ns ++ ms) (ns' ++ ms')
  hold {ns ns' : List Node} (h : R ns ns') (n : Node) : R [n.hold ns] [n.hold ns']

namespace Node.Congruence

theorem eq : Congruence (· = ·) where
  refl _ := rfl
  trans := Eq.trans
  append h hmore := by rw [h, hmore]
  hold h n := by rw [h]

variable {R : List Node → List Node → Prop}

theorem map (hR : Congruence R) {α : Type} {l : List α} {f g : α → Node} (h : ∀ a ∈ l, R [f a] [g a]) :
    R (l.map f) (l.map g) := by
  induction l with
  | nil => exact hR.refl []
  | cons a l ih => exact hR.append (h a List.mem_cons_self) (ih fun b hb => h b (List.mem_cons_of_mem a hb))

theorem flatMap (hR : Congruence R) {α : Type} {l : List α} {f g : α → List Node} (h : ∀ a ∈ l, R (f a) (g a)) :
    R (l.flatMap f) (l.flatMap g) := by
  induction l with
  | nil => exact hR.refl []
  | cons a l ih =>
      rw [List.flatMap_cons, List.flatMap_cons]
      exact hR.append (h a List.mem_cons_self) (ih fun b hb => h b (List.mem_cons_of_mem a hb))

theorem carries (hR : Congruence R) (policy : Policy) : Carries R policy policy where
  nil := hR.refl []
  append := hR.append
  item h task checked := by
    rw [Policy.item_eq_hold, Policy.item_eq_hold]
    exact hR.hold (hR.append (hR.refl _) h) _
  cell h header align := hR.hold h (ofCell header align [])
  row h := hR.hold h _

theorem alike_text (hR : Congruence R) (s : String) (parsed : Bool) :
    Recipe.Alike R (Renderer.textRecipe .nested s parsed) (Renderer.textRecipe .nested s parsed) :=
  .text (fun s => hR.refl [span s]) (fun _ _ h => hR.hold h (fragment [])) .nested s parsed

/-- The rules make related nodes of related parts. -/
theorem alike (hR : Congruence R) (policy : Policy) (place : Place) (t : Token) :
    Recipe.Alike R (Renderer.recipeIn policy place t) (Renderer.recipeIn policy place t) := by
  cases place with
  | block =>
      cases t with
      | space | hr | code | html => exact .leaf (hR.refl _)
      | heading raw depth => exact .around _ fun _ _ h => hR.hold h (ofHeading depth [])
      | paragraph | blockquote => exact .around _ fun _ _ h => hR.hold h _
      | text raw s ts escaped => exact hR.alike_text s ts.isSome
      | list raw ordered start => exact .around _ fun _ _ h => hR.hold h (ofList ordered start [])
      | listItem item => exact .around _ fun _ _ h => (hR.carries policy).item h item.task item.checked
      | table =>
          exact .both _ _ fun _ _ _ _ hheader hrows =>
            hR.hold (hR.append (hR.hold (hR.hold hheader _) _) (hR.hold hrows _)) _
      | _ => exact .unknown
  | inline =>
      cases t with
      | escape | html | image | codespan | br => exact .leaf (hR.refl _)
      | strong | em | del => exact .around _ fun _ _ h => hR.hold h _
      | text raw s ts escaped => exact hR.alike_text s ts.isSome
      | link raw href title s ts =>
          refine .around _ fun ns ns' h => ?_
          show R [policy.link href title ns] [policy.link href title ns']
          rw [policy.link_eq_hold href title ns, policy.link_eq_hold href title ns']
          exact hR.hold h _
      | _ => exact .unknown

end Node.Congruence

theorem Recipe.Alike.nodes {R : List Node → List Node → Prop} {recipe recipe' : Recipe}
    (h : Recipe.Alike R recipe recipe') {unknown unknown' : Node} (hunknown : R [unknown] [unknown'])
    {parts parts' : Part → List Node} (hparts : ∀ part ∈ recipe.parts, R (parts part) (parts' part)) :
    R (recipe.nodes unknown parts) (recipe'.nodes unknown' parts') := by
  cases h with
  | unknown => exact hunknown
  | leaf h => exact h
  | around part h => exact h _ _ (hparts part (by simp))
  | both first second h => exact h _ _ _ _ (hparts first (by simp)) (hparts second (by simp))

/-! ### Settled runs that agree -/

/-- The kinds of the misfits are all that a run without extensions tells of them. -/
theorem Renderer.settle_agree {α β : Type} {S : α → β → Prop} (silent : Bool) {misfits others : List Misfit}
    (h : misfits.map (·.token.kind) = others.map (·.token.kind)) {a : α} {b : β} (hab : S a b) :
    Run.Agree S (settle silent misfits a) (settle silent others b) := by
  cases silent with
  | true =>
      have hlogs := congrArg (List.map LogRecord.unknownToken) h
      simp only [List.map_map, Function.comp_def] at hlogs
      rw [settle, settle, hlogs]
      exact .ok hab [] _
  | false =>
      cases misfits with
      | nil =>
          rw [List.map_eq_nil_iff.mp h.symm]
          exact .ofOk hab
      | cons m rest =>
          cases others with
          | nil => cases h
          | cons m' rest' =>
              have hkind : m.token.kind = m'.token.kind := (List.cons.inj h).1
              rw [settle, settle, hkind]
              exact .ofFail _

/-! ### Edits -/

theorem Renderer.recipeIn_edit (policy : Policy) (f : Place → Token → List Token) (place : Place) (t : Token) :
    recipeIn policy place (t.edit f) = recipeIn policy place t := by
  rcases t with _ | _ | _ | _ | _ | _ | _ | _ | _ | _ | ⟨_, _, _ | _, _⟩ <;> cases place <;>
    simp [Token.edit]

namespace Token

open Renderer

theorem kind_edit (f : Place → Token → List Token) (t : Token) : (t.edit f).kind = t.kind := by
  rcases t with _ | _ | _ | _ | _ | _ | _ | _ | _ | _ | ⟨_, _, _ | _, _⟩ <;> simp [edit, kind]

/-- An edit that keeps the drawing of every token up to a relation, and the kinds of its misfits. -/
structure KeepsDrawing (R : List Node → List Node → Prop) (policy : Policy) (f : Place → Token → List Token) :
    Prop where
  drawn (place : Place) (t : Token) : R (drawOf policy place (f place t)) (draw policy place t)
  kinds (place : Place) (t : Token) :
    (misfitsOf place (f place t)).map (·.token.kind) = (t.misfits place).map (·.token.kind)

variable {R : List Node → List Node → Prop} {policy : Policy} {f : Place → Token → List Token}

/-! #### Misfits -/

theorem kinds_editOf_of {place : Place} {ts : List Token}
    (h : ∀ t ∈ ts, (misfitsOf place (f place (t.edit f))).map (·.token.kind) =
      (t.misfits place).map (·.token.kind)) :
    (misfitsOf place (editOf f place ts)).map (·.token.kind) = (misfitsOf place ts).map (·.token.kind) := by
  rw [editOf_eq_flatMap]
  simp only [misfitsOf, List.flatMap_assoc, List.map_flatMap] at h ⊢
  exact List.flatMap_congr h

theorem KeepsDrawing.kinds_edit (hf : KeepsDrawing R policy f) (t : Token) : ∀ place : Place,
    ((t.edit f).misfits place).map (·.token.kind) = (t.misfits place).map (·.token.kind) := by
  induction t using induct with
  | step t ih =>
      intro place
      by_cases h : place.admits t = true
      · rw [misfits_of_admits (by rwa [admits_edit]), misfits_of_admits h, inner_edit f h, innerPlace_edit]
        exact kinds_editOf_of fun u hu => (hf.kinds _ _).trans (ih u hu _)
      · rw [misfits_eq, misfits_eq, admits_edit, if_neg h, if_neg h]
        simp [kind_edit]

theorem KeepsDrawing.kinds_editOf (hf : KeepsDrawing R policy f) (place : Place) (ts : List Token) :
    (misfitsOf place (editOf f place ts)).map (·.token.kind) = (misfitsOf place ts).map (·.token.kind) :=
  kinds_editOf_of fun t _ => (hf.kinds place _).trans (hf.kinds_edit t place)

/-! #### Drawings -/

/-- What stands for the token once its inside has been edited is drawn as the token is, up to a relation. -/
def DrawnAs (R : List Node → List Node → Prop) (policy : Policy) (f : Place → Token → List Token) (t : Token) : Prop :=
  ∀ place, R (drawOf policy place (f place (t.edit f))) (draw policy place t)

section Drawn

variable (hR : Node.Congruence R)

include hR

theorem drawOf_editOf_of {place : Place} {ts : List Token} (h : ∀ t ∈ ts, DrawnAs R policy f t) :
    R (drawOf policy place (editOf f place ts)) (drawOf policy place ts) := by
  rw [editOf_eq_flatMap, drawOf, drawOf, List.flatMap_assoc]
  exact hR.flatMap fun t ht => h t ht place

theorem drawItem_edit_of {item : Item Token} (h : ∀ t ∈ item.tokens, DrawnAs R policy f t) :
    R [drawItem policy (item.edit f)] [drawItem policy item] :=
  (hR.carries policy).item (drawOf_editOf_of hR h) item.task item.checked

theorem drawCell_edit_of (header : Bool) {cell : Cell Token} (h : ∀ t ∈ cell.tokens, DrawnAs R policy f t) :
    R [drawCell policy header (cell.edit f)] [drawCell policy header cell] :=
  (hR.carries policy).cell (drawOf_editOf_of hR h) header cell.align

theorem drawPart_edit_of {t : Token} (h : ∀ u ∈ t.inner, DrawnAs R policy f u) {place : Place}
    (hadmits : place.admits t = true) {part : Part} (hpart : Primary t part) :
    R (drawPart policy (t.edit f) part) (drawPart policy t part) := by
  cases part with
  | children level =>
      obtain ⟨top, rfl⟩ := hpart
      rw [drawPart, drawPart, Place.place_level, children_edit f hadmits]
      exact drawOf_editOf_of hR fun u hu => h u (mem_inner_of_mem_children hu)
  | items =>
      rw [drawPart, drawPart, items_edit, List.map_map]
      exact hR.map fun item hitem => drawItem_edit_of hR fun u hu => h u (mem_inner_of_mem_items hitem hu)
  | header =>
      rw [drawPart, drawPart, header_edit, List.map_map]
      exact hR.map fun cell hcell => drawCell_edit_of hR true fun u hu => h u (mem_inner_of_mem_header hcell hu)
  | rows =>
      rw [drawPart, drawPart, rows_edit, List.map_map]
      refine hR.map fun row hrow => ?_
      rw [Function.comp_apply, drawRow, drawRow, List.map_map]
      exact (hR.carries policy).row (hR.map fun cell hcell =>
        drawCell_edit_of hR false fun u hu => h u (mem_inner_of_mem_rows hrow hcell hu))

theorem KeepsDrawing.drawnAs (hf : KeepsDrawing R policy f) (t : Token) : DrawnAs R policy f t := by
  induction t using induct with
  | step t ih =>
      intro place
      refine hR.trans (hf.drawn place (t.edit f)) ?_
      rw [draw_eq, draw_eq, recipeIn_edit]
      refine (hR.alike policy place t).nodes ?unknown fun part hpart => ?parts
      case unknown =>
        rw [Misfit.node, Misfit.node, Misfit.message, Misfit.message, kind_edit]
        exact hR.refl _
      case parts =>
        have hadmits : place.admits t = true := by
          by_contra hmisfit
          rw [recipeIn_eq_unknown_iff.mpr (by simpa using hmisfit)] at hpart
          simp at hpart
        exact drawPart_edit_of hR ih hadmits (primary_of_mem_parts hpart)

/-- What an edit keeps of single tokens it keeps of a forest: the runs agree. -/
theorem KeepsDrawing.renderTokens_editOf (hf : KeepsDrawing R policy f) (silent top : Bool) (place : Place)
    (ts : List Token) :
    Run.Agree R ((ofPolicy policy silent).renderTokens (place.level top) (editOf f place ts))
      ((ofPolicy policy silent).renderTokens (place.level top) ts) := by
  rw [renderTokens_eq_settle, renderTokens_eq_settle]
  exact settle_agree silent (hf.kinds_editOf place ts) (drawOf_editOf_of hR fun t _ => hf.drawnAs hR t)

end Drawn
end Token
end MarkdownNodes
